import MindOne.Coordinator.Attempts
import MindOne.Submission.Requests

/-!
# Failure reports that arrive late

The key of a failure report names the attempt that it is about, but the
coordinator applies the report to the current attempt. A report for an earlier
attempt is turned away unless its device has claimed the job again and holds
the lease at that moment.
-/

namespace MindOne.Submission

open CheckedArithmetic Coordinator Database KeyedTable

/-- A report that some worker makes for one attempt of a job. -/
def ReportsAttempt (jobId : Uuid) (attempt : Int) (request : JobFailRequest) : Prop :=
  ∃ nodeId claimed error retryable, claimed.jobId = jobId ∧ claimed.attempt = attempt ∧
    failureRequest nodeId claimed error retryable = .ok request

/-- In a run a report comes to a state of the coordinator in which its job is at a
later attempt. -/
structure ArrivesLate (env : Services) (actions : List Action) (db : Db) (principal : Principal)
    (job : Job) (request : JobFailRequest) (nowUtc : Int) : Prop where
  arrives : ∃ earlier later, db = performAll env earlier Db.initial ∧
    actions = earlier ++ .fail principal job.id request nowUtc :: later
  found : db.jobs.find job.id = some job
  late : ∃ attempt < job.attemptCount, ReportsAttempt job.id attempt request

/-- The device that reports holds the lease of the current attempt, and the key of
the report is new. -/
structure FailsCurrent (env : Services) (db : Db) (principal : Principal) (job : Job)
    (request : JobFailRequest) : Prop where
  valid : env.validateFailureReport request = .ok ()
  ordinary : workItemKind db job.id = .ok .ordinary
  holds : HoldsLease db job.id request.nodeId principal.userId principal.deviceKeyId
  unrecorded : recordedAttempt db job.id request.idempotencyKey = none
  unused : db.checkAttemptKey job.id job.attemptCount request.idempotencyKey = .ok ()

/-- The current attempt of a job, its status and its reservation are as before. -/
def Spares (db after : Db) (job : Job) : Prop :=
  after.jobAttempts.find (job.id, job.attemptCount) =
      db.jobAttempts.find (job.id, job.attemptCount) ∧
    (after.jobs.find job.id).map Job.status = some job.status ∧
    after.ledger.reservedOf job.userId = db.ledger.reservedOf job.userId

section Keys

theorem failureRequest_key {nodeId : Uuid} {claimed : ClaimedJob} {error : CliError}
    {retryable : Bool} {request : JobFailRequest}
    (h : failureRequest nodeId claimed error retryable = .ok request) :
    request.idempotencyKey = failureKey claimed := by
  simp only [failureRequest, orGeneral_eq_ok] at h
  obtain ⟨-, rfl⟩ := h
  rfl

/-- The keys of the reports for two attempts of one job differ. -/
theorem failureKey_injective {a b : ClaimedJob} (hjob : a.jobId = b.jobId)
    (h : failureKey a = failureKey b) : a.attempt = b.attempt := by
  unfold failureKey at h
  rw [hjob] at h
  exact toString_int_injective ((String.append_right_inj _).mp h)

theorem ReportsAttempt.key_ne {jobId : Uuid} {earlier later : Int} {old new : JobFailRequest}
    (hold : ReportsAttempt jobId earlier old) (hnew : ReportsAttempt jobId later new)
    (hne : earlier ≠ later) : old.idempotencyKey ≠ new.idempotencyKey := by
  obtain ⟨_, a, _, _, hjob, rfl, hrequest⟩ := hold
  obtain ⟨_, b, _, _, hjob', rfl, hrequest'⟩ := hnew
  rw [failureRequest_key hrequest, failureRequest_key hrequest']
  exact fun h => hne (failureKey_injective (hjob.trans hjob'.symm) h)

/-- What is recorded under a key carries it. -/
theorem recordedAttempt_key {db : Db} {jobId : Uuid} {key : String} {attempt : JobAttempt}
    {node : Node} (h : recordedAttempt db jobId key = some (attempt, node)) :
    attempt.resultIdempotencyKey = some key := by
  simp only [recordedAttempt, Option.bind_eq_bind, Option.bind_eq_some_iff] at h
  obtain ⟨found, hfound, _, -, hpair⟩ := h
  cases hpair
  exact (by simpa using List.find?_some hfound : _ ∧ _).2

end Keys

section Reports
variable {env : Services} {db after : Db} {job : Job} {principal : Principal}
  {request : JobFailRequest} {nowUtc : Int}

/-- The work item of an existing job. -/
theorem workItemKind_of_found {kind : WorkItemKind} (found : db.jobs.find job.id = some job)
    (h : workItemKind db job.id = .ok kind) : kind = .ordinary := by
  unfold workItemKind at h
  cases hchallenge : db.workers.challenges.find job.id with
  | none =>
      simp only [found, hchallenge] at h
      cases h
      rfl
  | some challenge => simp [found, hchallenge] at h

/-- A report that does not fail the current attempt changes nothing. -/
theorem jobFail_of_not_current {answer : ApiResult JobFailResponse}
    (found : db.jobs.find job.id = some job) (hnot : ¬ FailsCurrent env db principal job request)
    (h : jobFail env db principal job.id request nowUtc = .ok (after, answer)) : after = db := by
  by_cases hholds : HoldsLease db job.id request.nodeId principal.userId principal.deviceKeyId
  swap
  · refine jobFail_of_not_holder (fun hkind => ?_) hholds h
    cases workItemKind_of_found found hkind
  simp only [jobFail, bind_eq_ok] at h
  obtain ⟨_, valid, _, -, kind, hkind, h⟩ := h
  obtain rfl := workItemKind_of_found found hkind
  obtain ⟨⟨failed, _⟩, hfailed, hafter⟩ := bind_eq_ok.mp h
  cases hafter
  cases hrecorded : recordedAttempt db job.id request.idempotencyKey with
  | some recorded =>
      simp only [failOrdinaryJob, hrecorded, bind_eq_ok] at hfailed
      obtain ⟨_, -, hafter⟩ := hfailed
      cases hafter
      rfl
  | none =>
      simp only [failOrdinaryJob, hrecorded, reportFailure] at hfailed
      cases hrows : leaseRows db job.id with
      | none => simp [hrows] at hfailed
      | some rows =>
          obtain ⟨found', -⟩ := leaseRows_spec hrows
          obtain rfl := Option.some.inj (found.symm.trans found')
          simp only [hrows, recordFailure, bind_eq_ok] at hfailed
          obtain ⟨_, -, _, -, _, -, _, ⟨_, hunused, -⟩, -⟩ := hfailed
          exact absurd ⟨valid, hkind, hholds, hrecorded, hunused⟩ hnot

variable (db request nowUtc) in
/-- A report for a live job goes through: its account still reserves what the job holds. -/
theorem finishFailure_ok {account : QuotaAccount} (hledger : db.ledger.Consistent)
    (haccount : db.ledger.accounts.find account.userId = some account)
    (huser : account.userId = job.userId) (hnonneg : 0 ≤ job.reservedCostMicro)
    (hle : job.reservedCostMicro ≤ account.reservedMicro) :
    ∃ ended stepped, finishFailure db job request nowUtc = .ok ended ∧
      ended.jobs.find job.id = some stepped ∧ stepped.status ≠ .leased := by
  unfold finishFailure
  split
  · refine ⟨_, job.retried nowUtc, rfl, Table.find_set_self, fun h => ?_⟩
    cases h
  · rw [← huser, releaseReservation_ok hledger haccount hnonneg hle]
    refine ⟨_, { job with status := .failed, userId := account.userId }, rfl,
      Table.find_set_self, fun h => ?_⟩
    cases h

variable (nowUtc) in
theorem recordFailure_ok {allowed : Action → Db → Prop} (h : Reachable env allowed db)
    (found : db.jobs.find job.id = some job) (leased : job.status = .leased)
    (unused : db.checkAttemptKey job.id job.attemptCount request.idempotencyKey = .ok ()) :
    ∃ ended stepped, recordFailure db job request nowUtc = .ok ended ∧
      ended.jobs.find job.id = some stepped ∧ stepped.status ≠ .leased := by
  have live : job.status.Live := .inr (.inr leased)
  obtain ⟨account, huser, haccount, hpositive, hle⟩ := h.account_holds (Table.mem_of_find found) live
  obtain ⟨jobAttempts, hupdate, -⟩ := updateLeasedAttempt_spec db job
    (f := fun attempt => attempt.recordFailure request db.now) fun _ => rfl
  obtain ⟨ended, stepped, hended, hfind, hstatus⟩ :=
    finishFailure_ok { db with jobAttempts } request nowUtc
      h.consistent haccount huser hpositive.le hle
  have hquiet := Db.finalizeDrainingInstance_quiet ended job.modelInstanceId
  refine ⟨_, stepped, ?_, hquiet.jobs ▸ hfind, hstatus⟩
  simp only [recordFailure, unused, hupdate, hended, bind, Except.bind]
  rfl

variable (nowUtc) in
/-- A report from the holder of the lease ends the current attempt. -/
theorem jobFail_of_current {allowed : Action → Db → Prop} (h : Reachable env allowed db)
    (found : db.jobs.find job.id = some job) (hfails : FailsCurrent env db principal job request) :
    ∃ ended answer stepped, jobFail env db principal job.id request nowUtc = .ok (ended, answer) ∧
      ended.jobs.find job.id = some stepped ∧ stepped.status ≠ .leased := by
  obtain ⟨held, node, attempt, hheld, ⟨hnode, leased, valid⟩, hfind, huser, hdevice, hattempt,
    hclaim⟩ := hfails.holds
  obtain rfl := Option.some.inj (found.symm.trans hheld)
  have hid : node.id = request.nodeId := Table.key_of_find hfind
  have hrows : leaseRows db job.id = some ⟨job, node, attempt⟩ := by
    simp [leaseRows, found, hnode, hfind, hattempt]
  have howner : verifyNodeOwner db request.nodeId principal = .ok () := by
    simp [verifyNodeOwner, hfind, requireNodeDeviceBinding, rejectIf, huser, hdevice]
  have hbound : attempt.BoundTo principal node.userId :=
    JobAttempt.boundTo_iff.mpr ⟨huser, hclaim⟩
  obtain ⟨ended, stepped, hended, hstepped⟩ :=
    recordFailure_ok nowUtc h found leased hfails.unused
  refine ⟨ended, .ok ⟨job.id, true, false⟩, stepped, ?_, hstepped⟩
  have hreported : reportFailure db principal job.id request nowUtc =
      .ok (ended, ⟨job.id, true, false⟩) := by
    simp only [reportFailure, hrows, bind_eq_ok, rejectIf_eq_ok, exists_const, not_or, not_not]
    exact ⟨⟨huser, hid, hbound⟩, leased, valid, ended, hended, rfl⟩
  simp only [jobFail, hfails.valid, howner, hfails.ordinary, failOrdinaryJob, hfails.unrecorded,
    hreported, bind, Except.bind]
  rfl

/-- A late report spares the current attempt unless its device holds the lease. -/
theorem spares_iff {allowed : Action → Db → Prop} (h : Reachable env allowed db)
    (found : db.jobs.find job.id = some job) :
    Spares db (perform env (.fail principal job.id request nowUtc) db) job ↔
      ¬ FailsCurrent env db principal job request := by
  constructor
  · rintro ⟨-, hstatus, -⟩ hfails
    obtain ⟨ended, answer, stepped, hfailed, hfind, hended⟩ :=
      jobFail_of_current nowUtc h found hfails
    obtain ⟨held, _, _, hheld, ⟨-, leased, -⟩, -⟩ := hfails.holds
    obtain rfl := Option.some.inj (found.symm.trans hheld)
    simp only [perform, hfailed, Except.map, Db.commit, hfind, Option.map_some,
      Option.some.injEq] at hstatus
    exact hended (hstatus.trans leased)
  · intro hnot
    have hsame : perform env (.fail principal job.id request nowUtc) db = db :=
      commit_map_unchanged (jobFail_of_not_current found hnot)
    rw [hsame]
    exact ⟨rfl, by rw [found]; rfl, rfl⟩

/-- A report that is answered as a replay found its own key, which no report for
another attempt has. -/
theorem replay_of_own_key {jobId : Uuid} {earlier later : Int} {old new : JobFailRequest}
    {response : JobFailResponse} (hold : ReportsAttempt jobId earlier old)
    (hnew : ReportsAttempt jobId later new) (hne : earlier ≠ later)
    (hkind : workItemKind db jobId ≠ .ok .hidden)
    (h : jobFail env db principal jobId new nowUtc = .ok (after, .ok response))
    (hreplay : response.idempotentReplay = true) :
    ∃ attempt node, recordedAttempt db jobId new.idempotencyKey = some (attempt, node) ∧
      attempt.resultIdempotencyKey ≠ some old.idempotencyKey := by
  have hordinary : ∃ answer, failOrdinaryJob db principal jobId new nowUtc = .ok answer ∧
      answer.2 = response := by
    simp only [jobFail, bind_eq_ok] at h
    obtain ⟨_, -, _, -, kind, hwork, h⟩ := h
    cases kind with
    | hidden => exact absurd hwork hkind
    | ordinary =>
        obtain ⟨answer, hfailed, hafter⟩ := bind_eq_ok.mp h
        cases hafter
        exact ⟨answer, hfailed, rfl⟩
    | missing =>
        obtain ⟨answer, hfailed, hafter⟩ := bind_eq_ok.mp h
        cases hafter
        exact ⟨answer, hfailed, rfl⟩
  obtain ⟨answer, hfailed, rfl⟩ := hordinary
  cases hrecorded : recordedAttempt db jobId new.idempotencyKey with
  | some recorded =>
      obtain ⟨attempt, node⟩ := recorded
      refine ⟨attempt, node, rfl, fun hkey => hold.key_ne hnew hne ?_⟩
      rw [recordedAttempt_key hrecorded, Option.some.injEq] at hkey
      exact hkey.symm
  | none =>
      simp only [failOrdinaryJob, hrecorded, reportFailure] at hfailed
      cases hrows : leaseRows db jobId with
      | none => simp [hrows] at hfailed
      | some rows =>
          simp only [hrows, bind_eq_ok] at hfailed
          obtain ⟨_, -, _, -, _, -, _, -, hafter⟩ := hfailed
          cases hafter
          cases hreplay

end Reports

/-- In every run, the reports that arrive late all leave the current attempt, the job and
its reservation as they are if and only if none of them comes from the holder of the
lease; and no report for one attempt is answered as a replay of one for another. -/
theorem late_reports_spare_attempts {env : Services} (actions : List Action) :
    ((∀ db principal job request nowUtc,
        ArrivesLate env actions db principal job request nowUtc →
        Spares db (perform env (.fail principal job.id request nowUtc) db) job) ↔
      ∀ db principal job request nowUtc,
        ArrivesLate env actions db principal job request nowUtc →
        ¬ FailsCurrent env db principal job request) ∧
    ∀ db principal jobId nowUtc after response earlier later old new,
      workItemKind db jobId ≠ .ok .hidden →
      ReportsAttempt jobId earlier old → ReportsAttempt jobId later new → earlier ≠ later →
      jobFail env db principal jobId new nowUtc = .ok (after, .ok response) →
      response.idempotentReplay = true →
      ∃ attempt node, recordedAttempt db jobId new.idempotencyKey = some (attempt, node) ∧
        attempt.resultIdempotencyKey ≠ some old.idempotencyKey := by
  have hstep : ∀ db principal job request nowUtc,
      ArrivesLate env actions db principal job request nowUtc →
      (Spares db (perform env (.fail principal job.id request nowUtc) db) job ↔
        ¬ FailsCurrent env db principal job request) := by
    intro db principal job request nowUtc harrives
    obtain ⟨⟨earlier, later, rfl, -⟩, found, -⟩ := harrives
    exact spares_iff (Reachable.initial.performAll earlier) found
  refine ⟨⟨?_, ?_⟩, ?_⟩
  · intro h db principal job request nowUtc harrives
    exact (hstep db principal job request nowUtc harrives).mp (h _ _ _ _ _ harrives)
  · intro h db principal job request nowUtc harrives
    exact (hstep db principal job request nowUtc harrives).mpr (h _ _ _ _ _ harrives)
  · intro db principal jobId nowUtc after response earlier later old new hkind hold hnew hne h
      hreplay
    exact replay_of_own_key hold hnew hne hkind h hreplay

section Sample

/-- The lease expires, and the same device claims the job again. -/
def sampleReclaim : List Action := sampleLease ++ [.passTime 100000000,
  .report (sampleWorkers 100000000), sampleClaim 100000000 (some sampleInstance)]

/-- What the worker reports for an attempt. -/
def sampleReport (key : String) : JobFailRequest where
  nodeId := .fromU128 20
  idempotencyKey := key
  errorClass := .engine
  errorMessage := "engine stopped"
  retryable := false

def sampleKey (attempt : String) : String :=
  "fail:00000000-0000-0000-0000-000000000007:" ++ attempt

theorem sampleReport_reports {attempt : Int} {text : String} (hfits : Fits 32 attempt)
    (hkey : failureKey ⟨sampleJobId, attempt, hfits⟩ = sampleKey text)
    (hvalid : validateFailRequest (sampleReport (sampleKey text)) = .ok ()) :
    ReportsAttempt sampleJobId attempt (sampleReport (sampleKey text)) := by
  refine ⟨.fromU128 20, ⟨sampleJobId, attempt, hfits⟩, ⟨.engineOrSandbox, "engine stopped"⟩,
    false, rfl, rfl, ?_⟩
  simp only [failureRequest, orGeneral_eq_ok, hkey]
  exact ⟨hvalid, rfl⟩

theorem sampleReport_first : ReportsAttempt sampleJobId 1 (sampleReport (sampleKey "1")) :=
  sampleReport_reports (by decide) (by decide +kernel) (by rfl)

/-- The report for the first attempt comes when the second one is under way, and fails the job. -/
theorem late_reports_spare_attempts_fails :
    ∃ actions db principal job request nowUtc,
      ArrivesLate sampleServices actions db principal job request nowUtc ∧
        ¬ Spares db (perform sampleServices (.fail principal job.id request nowUtc) db) job := by
  have hjob : ((performAll sampleServices sampleReclaim Db.initial).jobs.find sampleJobId).map
      (fun job => (job.status, job.attemptCount)) = some (.leased, 2) := by decide +kernel
  have hafter : ((perform sampleServices
      (.fail sampleWorker sampleJobId (sampleReport (sampleKey "1")) 100000000)
      (performAll sampleServices sampleReclaim Db.initial)).jobs.find sampleJobId).map
      Job.status = some .failed := by decide +kernel
  obtain ⟨job, hfind, hrow⟩ := Option.map_eq_some_iff.mp hjob
  obtain ⟨hleased, hcount⟩ := Prod.mk.inj hrow
  have hid : job.id = sampleJobId := Table.key_of_find hfind
  refine ⟨_, _, sampleWorker, job, sampleReport (sampleKey "1"), 100000000,
    ⟨⟨sampleReclaim, [], rfl, rfl⟩, hid ▸ hfind, 1, by rw [hcount]; decide,
      hid ▸ sampleReport_first⟩, fun hspares => ?_⟩
  obtain ⟨-, hstatus, -⟩ := hspares
  rw [hid, hafter, hleased] at hstatus
  cases hstatus

end Sample

end MindOne.Submission

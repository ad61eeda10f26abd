import MindOne.Coordinator.Transitions

/-!
# Operations as transitions

Each operation of the coordinator that goes through is a sequence of
transitions. A claim abandons a lease only when its candidate is a leased job
and its instance is lost between the query and the lease.
-/

namespace MindOne.Coordinator

open CheckedArithmetic Accounting Database KeyedTable

section Writes
variable {db after : Db} {job : Job} {f : JobAttempt → JobAttempt}

/-- An update of the current attempt of a job, as a table. -/
theorem updateLeasedAttempt_spec (db : Db) (job : Job) (hkey : ∀ attempt, (f attempt).key = attempt.key) :
    ∃ jobAttempts, db.updateLeasedAttempt job.id job.attemptCount f = { db with jobAttempts } ∧
      ∀ jobId n, jobAttempts.find (jobId, n) =
        if jobId = job.id then (db.life job).endCurrent f n
        else db.jobAttempts.find (jobId, n) := by
  have same (attempts : Option JobAttempt)
      (hattempts : db.jobAttempts.find (job.id, job.attemptCount) = attempts)
      (hsame : (attempts.map fun a => if a.status = .leased then f a else a) = attempts) :
      ∀ jobId n, db.jobAttempts.find (jobId, n) =
        if jobId = job.id then (db.life job).endCurrent f n
        else db.jobAttempts.find (jobId, n) := by
    intro jobId n
    by_cases hid : jobId = job.id
    · rw [if_pos hid, Life.endCurrent, Life.current]
      simp only [Db.life, hattempts, hsame]
      rw [← hattempts, Function.update_eq_self (job.attemptCount), hid]
    · rw [if_neg hid]
  unfold Db.updateLeasedAttempt
  cases hfind : db.jobAttempts.find (job.id, job.attemptCount) with
  | none => exact ⟨db.jobAttempts, rfl, same none hfind rfl⟩
  | some attempt =>
      by_cases hleased : attempt.status = .leased
      · refine ⟨db.jobAttempts.set (f attempt), by simp [hleased, Db.putAttempt], ?_⟩
        intro jobId n
        have hattempt : (f attempt).key = (job.id, job.attemptCount) :=
          (hkey attempt).trans (Table.key_of_find hfind)
        rw [Table.find_set, hattempt]
        by_cases hid : jobId = job.id
        · subst hid
          rw [if_pos rfl, Life.endCurrent, Life.current]
          by_cases hn : n = job.attemptCount
          · subst hn
            simp [Db.life, hfind, hleased]
          · simp [Db.life, hn]
        · simp [hid]
      · refine ⟨db.jobAttempts, by simp [hleased], same (some attempt) hfind ?_⟩
        simp [hleased]

theorem expirePreviousAttempt_spec (db : Db) (job : Job) :
    ∃ jobAttempts, expirePreviousAttempt db job = { db with jobAttempts } ∧
      ∀ jobId n, jobAttempts.find (jobId, n) =
        if jobId = job.id then (db.life job).expireCurrent db.now n
        else db.jobAttempts.find (jobId, n) := by
  unfold expirePreviousAttempt Life.expireCurrent
  by_cases hpos : 0 < job.attemptCount
  · have hlife : 0 < (db.life job).job.attemptCount := hpos
    rw [if_pos hpos, if_pos hlife]
    exact updateLeasedAttempt_spec db job (f := fun attempt => attempt.expire db.now) fun _ => rfl
  · refine ⟨db.jobAttempts, by rw [if_neg hpos], fun jobId n => ?_⟩
    by_cases hid : jobId = job.id
    · simp [hid, Db.life, hpos]
    · simp [hid]

/-- A life that is written with its job, its attempts and its receipt. -/
theorem follows_of_attempts {ledger : LedgerDb} {jobAttempts : Table JobAttempt.key}
    {attempts : Int → Option JobAttempt} {new : Job} (hid : new.id = job.id)
    (hattempts : ∀ jobId n, jobAttempts.find (jobId, n) =
      if jobId = job.id then attempts n else db.jobAttempts.find (jobId, n)) :
    Follows db ⟨new, attempts, db.receipts.find job.id⟩
      { db with ledger, jobAttempts, jobs := db.jobs.set new } where
  now := rfl
  jobs := rfl
  attempts := by
    rw [hid]
    exact hattempts
  receipts := by
    intro jobId
    by_cases h : jobId = new.id
    · simp [h, hid]
    · simp [h]
  workers := rfl
  grants := rfl
  releases := rfl

/-- A job that is written without its attempts. -/
theorem follows_job {ledger : LedgerDb} {new : Job} (hid : new.id = job.id) :
    Follows db ⟨new, (db.life job).attempts, db.receipts.find job.id⟩
      { db with ledger, jobs := db.jobs.set new } := by
  refine follows_of_attempts hid fun jobId n => ?_
  by_cases h : jobId = job.id
  · rw [if_pos h, h]
    rfl
  · rw [if_neg h]

end Writes

section Releases
variable {env : Services} {lost : Prop} {db after : Db} {job : Job}

/-- The end of a leased job together with its current attempt. -/
theorem ended_moves {ledger : LedgerDb} {jobAttempts : Table JobAttempt.key}
    {f : JobAttempt → JobAttempt} (new : Job) (found : db.jobs.find job.id = some job)
    (hid : new.id = job.id)
    (step : Life.Ended (db.life job)
      ⟨new, (db.life job).endCurrent f, db.receipts.find job.id⟩)
    (hattempts : ∀ jobId n, jobAttempts.find (jobId, n) =
      if jobId = job.id then (db.life job).endCurrent f n
      else db.jobAttempts.find (jobId, n))
    (released : db.ledger.Moved job.userId (-job.reservedCostMicro) ledger) :
    Moves env lost db 0 { db with ledger, jobAttempts, jobs := db.jobs.set new } :=
  .single (.ended found step (follows_of_attempts hid hattempts) released)

/-- A step after which the job row is the given one. -/
structure EndsAs (env : Services) (lost : Prop) (db : Db) (new : Job) (after : Db) : Prop where
  moves : Moves env lost db 0 after
  now : after.now = db.now
  jobs : after.jobs = db.jobs.set new

theorem EndsAs.find_other {new : Job} (h : EndsAs env lost db new after) {id : Uuid}
    (hne : id ≠ new.id) : after.jobs.find id = db.jobs.find id := by
  rw [h.jobs, Table.find_set_ne hne]

theorem EndsAs.finalize {new : Job} (h : EndsAs env lost db new after)
    (modelInstanceId : Option Uuid) :
    EndsAs env lost db new (after.finalizeDrainingInstance modelInstanceId) := by
  have quiet := after.finalizeDrainingInstance_quiet modelInstanceId
  have hnow : (after.finalizeDrainingInstance modelInstanceId).now = after.now := by
    cases modelInstanceId <;> rfl
  exact ⟨h.moves.quiet quiet, hnow.trans h.now, quiet.jobs.trans h.jobs⟩

theorem reapExpiredLease_endsAs (found : db.jobs.find job.id = some job)
    (leased : job.status = .leased) (h : reapExpiredLease db job = .ok after) :
    EndsAs env lost db { job with status := .failed } after := by
  simp only [reapExpiredLease, bind_eq_ok] at h
  obtain ⟨released, hrelease, hafter⟩ := h
  obtain ⟨ledger, hmoved, rfl⟩ := releaseReservation_eq_ok hrelease
  let f (attempt : JobAttempt) : JobAttempt :=
    { attempt with
      status := .expired
      finishedAt := some db.now
      errorClass := some "timeout"
      errorMessage := some "租约过期且已达到最大尝试次数" }
  obtain ⟨jobAttempts, hupdate, hattempts⟩ :=
    updateLeasedAttempt_spec { db with ledger } job (f := f) fun _ => rfl
  cases hafter
  rw [hupdate]
  have ends : EndsAttempt f := fun _ => ⟨rfl, .inr rfl⟩
  exact EndsAs.finalize
    ⟨ended_moves { job with status := .failed } found rfl (.failed leased ends) hattempts hmoved,
      rfl, rfl⟩ _

theorem mem_reapBatch {locked : Uuid → Bool} {chosen : Job → Prop} [DecidablePred chosen]
    (h : job ∈ db.reapBatch locked chosen) : db.jobs.find job.id = some job ∧ chosen job := by
  have hsorted := List.mem_of_mem_take h
  rw [List.mem_mergeSort, List.mem_filter] at hsorted
  obtain ⟨hmem, hchosen⟩ := hsorted
  exact ⟨Table.find_of_mem hmem, (of_decide_eq_true hchosen).1⟩

theorem nodup_reapBatch {locked : Uuid → Bool} {chosen : Job → Prop} [DecidablePred chosen] :
    ((db.reapBatch locked chosen).map Job.id).Nodup := by
  have hfiltered : ((db.jobs.rows.filter fun job => chosen job ∧ locked job.id = false).map
      Job.id).Nodup := db.jobs.nodup.sublist (List.filter_sublist.map _)
  have hsorted := ((List.mergeSort_perm _ Job.reapedBefore).map Job.id).nodup_iff.mpr hfiltered
  exact hsorted.sublist ((List.take_sublist _ _).map _)

/-- The loop over the exhausted leases; the jobs of a batch do not meet. -/
theorem reapExpiredLeases_moves {jobs : List Job} (hnodup : (jobs.map Job.id).Nodup)
    (hfound : ∀ job ∈ jobs, db.jobs.find job.id = some job ∧ job.status = .leased)
    (h : jobs.foldlM reapExpiredLease db = .ok after) : Moves env lost db 0 after := by
  induction jobs generalizing db with
  | nil =>
      cases h
      exact .refl
  | cons job rest ih =>
      rw [List.foldlM_cons, bind_eq_ok] at h
      obtain ⟨mid, hmid, hrest⟩ := h
      rw [List.map_cons, List.nodup_cons] at hnodup
      obtain ⟨found, leased⟩ := hfound job List.mem_cons_self
      have ends : EndsAs env lost db { job with status := .failed } mid :=
        reapExpiredLease_endsAs found leased hmid
      refine ends.moves.andThen (ih hnodup.2 (fun other hother => ?_) hrest)
      have hne : other.id ≠ job.id := fun heq =>
        hnodup.1 (List.mem_map.mpr ⟨other, hother, heq⟩)
      rw [ends.find_other hne]
      exact hfound other (List.mem_cons_of_mem _ hother)

theorem reapExpiredTerminalLeases_moves {locked : Uuid → Bool}
    (h : reapExpiredTerminalLeases locked db = .ok after) : Moves env lost db 0 after := by
  simp only [reapExpiredTerminalLeases, bind_eq_ok] at h
  obtain ⟨reaped, hreaped, hafter⟩ := h
  cases hafter
  refine (reapExpiredLeases_moves nodup_reapBatch (fun job hjob => ?_) hreaped).quiet
    (reaped.unpublishDrained_quiet _)
  obtain ⟨found, exhausted⟩ := mem_reapBatch hjob
  exact ⟨found, exhausted.1⟩

/-- The row that the reaper of invalid regulated jobs inserts is refused: it binds
its attempt to no device. -/
theorem reapInvalidRegulatedJob_fails : reapInvalidRegulatedJob db job ≠ .ok after := by
  intro h
  simp only [reapInvalidRegulatedJob, bind_eq_ok, Db.insertJobAttempt, orInternal_eq_ok,
    NewJobAttempt.checkClaimDeviceBinding] at h
  obtain ⟨_, -, _, -, _, ⟨_, hrefused, -⟩, -⟩ := h
  cases hrefused

/-- The reaper of invalid regulated jobs goes through only when it finds none. -/
theorem reapInvalidRegulatedJobs_eq_ok {locked : Uuid → Bool} :
    reapInvalidRegulatedJobs locked db = .ok after ↔
      db.reapBatch locked (fun job => job.BindingLost db.workers db.now) = [] ∧ after = db := by
  unfold reapInvalidRegulatedJobs
  cases db.reapBatch locked fun job => job.BindingLost db.workers db.now with
  | nil => simp [pure, Except.pure, eq_comm]
  | cons job rest =>
      simp only [List.foldlM_cons, bind_eq_ok, reduceCtorEq, false_and, iff_false]
      rintro ⟨mid, hmid, -⟩
      exact reapInvalidRegulatedJob_fails hmid

theorem putAttempt_eq_updateLeasedAttempt {attempt : JobAttempt} {f : JobAttempt → JobAttempt}
    (hfind : db.jobAttempts.find (job.id, job.attemptCount) = some attempt)
    (hleased : attempt.status = .leased) :
    db.putAttempt (f attempt) = db.updateLeasedAttempt job.id job.attemptCount f := by
  simp [Db.updateLeasedAttempt, hfind, hleased]

theorem failRegulatedLeaseAttestation_endsAs {jobId : Uuid} {message : String}
    (h : failRegulatedLeaseAttestation db jobId message = .ok after) :
    ∃ job, db.jobs.find jobId = some job ∧ job.status = .leased ∧
      EndsAs env lost db { job with status := .failed } after := by
  unfold failRegulatedLeaseAttestation at h
  cases hjob : db.jobs.find jobId with
  | none => simp [hjob] at h
  | some job =>
      obtain rfl := Table.key_of_find hjob
      simp only [hjob, bind_eq_ok, rejectIf_eq_ok, exists_const, not_or, not_not,
        fetchOne_eq_ok, Option.filter_eq_some_iff, decide_eq_true_eq] at h
      obtain ⟨⟨-, leased⟩, released, hrelease, attempt, ⟨hfind, hleased⟩, hafter⟩ := h
      obtain ⟨ledger, hmoved, rfl⟩ := releaseReservation_eq_ok hrelease
      let f (attempt : JobAttempt) : JobAttempt :=
        { attempt with
          status := .failed
          finishedAt := some db.now
          errorClass := some "attestation"
          errorMessage := some message
          retryableRequested := some false }
      have hput : Db.putAttempt { db with ledger } (f attempt) =
          Db.updateLeasedAttempt { db with ledger } job.id job.attemptCount f :=
        putAttempt_eq_updateLeasedAttempt hfind hleased
      obtain ⟨jobAttempts, hupdate, hattempts⟩ :=
        updateLeasedAttempt_spec { db with ledger } job (f := f) fun _ => rfl
      rw [hput, hupdate] at hafter
      cases hafter
      have ends : EndsAttempt f := fun _ => ⟨rfl, .inl rfl⟩
      refine ⟨job, rfl, leased, EndsAs.finalize ⟨ended_moves { job with status := .failed } hjob
        rfl (.failed leased ends) hattempts hmoved, rfl, rfl⟩ _⟩

theorem cancelTimedOutJob_moves {principal : Principal} {jobId : Uuid}
    (h : cancelTimedOutJob db principal jobId = .ok after) : Moves env lost db 0 after := by
  unfold cancelTimedOutJob at h
  cases hjob : (db.jobs.find jobId).filter fun job => job.userId = principal.userId with
  | none => simp [hjob] at h
  | some job =>
      obtain ⟨hfind, huser⟩ := Option.filter_eq_some_iff.mp hjob
      obtain rfl := Table.key_of_find hfind
      rw [decide_eq_true_eq] at huser
      simp only [hjob] at h
      by_cases hlive : job.status.Live
      · rw [if_neg (not_not.mpr hlive)] at h
        obtain ⟨released, hrelease, hafter⟩ := bind_eq_ok.mp h
        obtain ⟨ledger, hmoved, rfl⟩ := releaseReservation_eq_ok hrelease
        rw [← huser] at hmoved
        let new : Job := { job with status := .cancelled, leaseExpiresAt := none }
        by_cases leased : job.status = .leased
        · let f (attempt : JobAttempt) : JobAttempt :=
            { attempt with
              status := .failed
              finishedAt := some db.now
              errorClass := some "timeout"
              errorMessage := some "公网 OpenAI 网关等待超时并取消任务" }
          obtain ⟨jobAttempts, hupdate, hattempts⟩ :=
            updateLeasedAttempt_spec { db with ledger } job (f := f) fun _ => rfl
          rw [if_pos leased, hupdate] at hafter
          cases hafter
          have ends : EndsAttempt f := fun _ => ⟨rfl, .inl rfl⟩
          exact (ended_moves new hfind rfl (.cancelled leased ends) hattempts hmoved).quiet
            (Db.finalizeDrainingInstance_quiet _ _)
        · rw [if_neg leased] at hafter
          cases hafter
          have waiting : job.status = .queued ∨ job.status = .retry := by
            rcases hlive with hs | hs | hs
            · exact .inl hs
            · exact .inr hs
            · exact absurd hs leased
          have hended : Transition env lost db 0 { db with ledger, jobs := db.jobs.set new } :=
            .ended hfind (.withdrawn waiting) (follows_job rfl) hmoved
          exact (Moves.single hended).quiet
            (Db.finalizeDrainingInstance_quiet _ _)
      · rw [if_pos hlive] at h
        cases h
        exact .refl

end Releases

section Create
variable {env : Services} {lost : Prop} {db after : Db} {job : Job} {userId : Uuid}
  {principal : Principal} {jobId : Uuid} {response : CreateJobResponse}

theorem reserveForJob_eq_ok {reservation : Int}
    (h : reserveForJob db userId reservation = .ok after) :
    ∃ ledger, db.ledger.Moved userId reservation ledger ∧ after = { db with ledger } := by
  simp only [reserveForJob, bind_eq_ok, fetchOne_eq_ok, rejectIf_eq_ok, exists_const] at h
  obtain ⟨account, hfind, -, htake⟩ := h
  exact takeReservation_eq_ok hfind htake

theorem insertJob_eq_ok (h : db.insertJob job = .ok after) :
    db.jobs.find job.id = none ∧ 0 < job.reservedCostMicro ∧ 1 ≤ job.maxAttempts ∧
      after = db.putJob job := by
  simp only [Db.insertJob, bind_eq_ok, rejectIf_eq_ok, exists_const, not_or, not_not] at h
  obtain ⟨⟨hreserved, hmax, -⟩, fresh, -, -, hafter⟩ := h
  cases hafter
  exact ⟨fresh, by omega, by omega, rfl⟩

theorem maxAttemptsOf_le (maxJobRetries : Int) : maxAttemptsOf maxJobRetries ≤ maxI32 := by
  simp only [maxAttemptsOf, saturatingSuccI32, maxI32]
  omega

/-- A job that is inserted with its reservation. -/
theorem inserted_moves {admitted : Db} (hreserve : reserveForJob db job.userId
      job.reservedCostMicro = .ok admitted) (hinsert : admitted.insertJob job = .ok after)
    (hstatus : job.status = .queued) (hcount : job.attemptCount = 0)
    (hmax : job.maxAttempts ≤ maxI32)
    (hsealed : job.confidentialityMode = .standard →
      ∃ text, env.encryptForStorage job.id .payload text = .ok job.encryptedPayload)
    (hpinned : job.confidentialityMode = .regulated → (bindingRows db.workers job).isSome) :
    Moves env lost db 0 after ∧ after.workers = db.workers := by
  obtain ⟨ledger, hmoved, rfl⟩ := reserveForJob_eq_ok hreserve
  obtain ⟨fresh, hreserved, hlow, rfl⟩ := insertJob_eq_ok hinsert
  have new : job.Created env db.workers :=
    ⟨hstatus, hcount, ⟨hlow, hmax⟩, hreserved, hsealed, hpinned⟩
  exact ⟨.single (.created fresh new hmoved (follows_job rfl)), rfl⟩

theorem createJobAuthenticated_moves {request : CreateJobRequest}
    (h : createJobAuthenticated env db principal request jobId = .ok (after, response)) :
    Moves env lost db 0 after := by
  simp only [createJobAuthenticated, bind_eq_ok] at h
  obtain ⟨validated, -, h⟩ := h
  cases hcreated : db.createdUnder principal.userId request.idempotencyKey with
  | some existing =>
      simp only [hcreated, bind_eq_ok] at h
      obtain ⟨_, -, hafter⟩ := h
      cases hafter
      exact .refl
  | none =>
      simp only [hcreated, createStandardJob, bind_eq_ok] at h
      obtain ⟨_, -, speedModel, -, model, -, billing, -, admitted, hreserve, payload, hpayload,
        inserted, hinsert, hafter⟩ := h
      cases hafter
      refine (inserted_moves hreserve hinsert rfl rfl ?_ (fun _ => ⟨_, hpayload⟩) nofun).1
      show (if validated.stream = true then (1 : Int) else maxAttemptsOf env.maxJobRetries) ≤
        maxI32
      split
      · decide
      · exact maxAttemptsOf_le _

/-- The rows that a route was found with pin the job that consumes it. -/
theorem routeRows_bindingRows {workers : Workers} {route : RegulatedRoute} {rows : RouteRows}
    (h : routeRows workers route = some rows) (hnode : job.regulatedNodeId = some route.nodeId)
    (hinstance : job.modelInstanceId = some route.modelInstanceId)
    (hreport : job.attestationReportId = some route.attestationReportId) :
    (bindingRows workers job).isSome := by
  simp only [routeRows, Option.bind_eq_bind, Option.bind_eq_some_iff] at h
  obtain ⟨_, -, _, hmi, _, hn, _, hr, -⟩ := h
  simp [bindingRows, hnode, hinstance, hreport, hmi, hn, hr]

theorem createRegulatedJob_moves {request : CreateRegulatedJobRequest} {nowUtc : Int}
    (h : createRegulatedJob env db principal request jobId nowUtc = .ok (after, response)) :
    Moves env lost db 0 after := by
  simp only [createRegulatedJob, bind_eq_ok] at h
  obtain ⟨requestFingerprint, -, h⟩ := h
  cases hcreated : db.createdUnder principal.userId request.idempotencyKey with
  | some existing =>
      simp only [hcreated, bind_eq_ok] at h
      obtain ⟨_, -, hafter⟩ := h
      cases hafter
      exact .refl
  | none =>
      simp only [hcreated, consumeRoute, bind_eq_ok] at h
      obtain ⟨_, -, h⟩ := h
      cases hroute : db.workers.routes.find request.routeId with
      | none => simp [hroute] at h
      | some route =>
      cases hrows : routeRows db.workers route with
      | none => simp [hroute, hrows] at h
      | some rows =>
          simp only [hroute, hrows, bind_eq_ok, rejectIf_eq_ok, exists_const] at h
          obtain ⟨-, -, -, billing, -, capacity, -, -, -, -, -, -, admitted, hreserve, inserted,
            hinsert, -, hafter⟩ := h
          cases hafter
          have hmoves : Moves env lost db 0 inserted ∧ inserted.workers = db.workers :=
            inserted_moves hreserve hinsert rfl rfl (maxAttemptsOf_le _)
              (fun standard => by cases standard) fun _ => routeRows_bindingRows hrows rfl rfl rfl
          refine hmoves.1.quiet (.ofWorkers ?_)
          rw [hmoves.2]
          exact ⟨.refl _, .refl _, .refl _, .refl _⟩

end Create

section Hidden
variable {env : Services} {db after : Db} {principal : Principal} {jobId nodeId : Uuid}

/-- Challenges are no concern of jobs and ledgers. -/
theorem challenges_quiet (db : Db) (challenges : Table EvaluationChallenge.id)
    (quarantined : Uuid → Bool) :
    Quiet db { db with workers := { db.workers with challenges, quarantined } } :=
  .ofWorkers ⟨.refl _, .refl _, .refl _, .refl _⟩

theorem Db.endChallenge_quiet (db : Db) (ended : EvaluationChallenge) (passed : Bool) :
    Quiet db (db.endChallenge env ended passed) := by
  have hwritten := challenges_quiet db (db.workers.challenges.set ended)
    (env.canarySignal db ended.modelInstanceId passed)
  exact hwritten.trans (Db.finalizeDrainingInstance_quiet _ (some ended.modelInstanceId))

theorem completeExpiredFailure_quiet {challenge : EvaluationChallenge}
    (h : completeExpiredFailure env db challenge = .ok after) : Quiet db after := by
  simp only [completeExpiredFailure, bind_eq_ok] at h
  obtain ⟨_, -, hafter⟩ := h
  cases hafter
  exact db.endChallenge_quiet _ _

theorem expireStaleChallenges_quiet {locked : Uuid → Bool}
    (h : expireStaleChallenges env db nodeId locked = .ok after) : Quiet db after := by
  have hfold (challenges : List EvaluationChallenge) :
      ∀ {db}, challenges.foldlM (completeExpiredFailure env) db = .ok after → Quiet db after := by
    induction challenges with
    | nil =>
        intro db hdb
        cases hdb
        exact .refl _
    | cons challenge rest ih =>
        intro db hdb
        rw [List.foldlM_cons, bind_eq_ok] at hdb
        obtain ⟨mid, hmid, hrest⟩ := hdb
        exact (completeExpiredFailure_quiet hmid).trans (ih hrest)
  exact hfold _ h

theorem maybeClaimHiddenJob_quiet {modelInstanceId : Uuid} {locked : Uuid → Bool}
    {draw : Option ChallengeDraw} {response : Option ClaimJobResponse}
    (h : maybeClaimHiddenJob env db principal nodeId modelInstanceId locked draw =
      .ok (after, response)) : Quiet db after := by
  simp only [maybeClaimHiddenJob, bind_eq_ok] at h
  obtain ⟨swept, hswept, h⟩ := h
  refine (expireStaleChallenges_quiet hswept).trans ?_
  split at h
  · simp only [insertChallengeClaim, bind_eq_ok, rejectIf_eq_ok, exists_const] at h
    obtain ⟨_, ⟨-, hclaimed⟩, hafter⟩ := h
    cases hclaimed
    cases hafter
    exact challenges_quiet swept _ _
  · cases h
    exact .refl _

theorem renewHiddenJob_quiet {nowUtc : Int} {renewal : HiddenRenewal}
    (h : renewHiddenJob env db principal jobId nodeId nowUtc = .ok (after, renewal)) :
    Quiet db after := by
  unfold renewHiddenJob at h
  cases hrow : hiddenJobRow db jobId with
  | none => simp [hrow] at h
  | some row =>
      simp only [hrow, bind_eq_ok, rejectIf_eq_ok, exists_const] at h
      obtain ⟨_, -, -, -, h⟩ := h
      split at h
      · obtain ⟨_, hexpired, hafter⟩ := bind_eq_ok.mp h
        cases hafter
        exact completeExpiredFailure_quiet hexpired
      · cases h
        exact challenges_quiet db _ _

theorem expireHiddenJobIfNeeded_quiet {nowUtc : Int} {expired : Bool}
    (h : expireHiddenJobIfNeeded env db principal jobId nodeId nowUtc = .ok (after, expired)) :
    Quiet db after := by
  unfold expireHiddenJobIfNeeded at h
  cases hrow : hiddenJobRow db jobId with
  | none =>
      simp only [hrow] at h
      cases h
      exact .refl _
  | some row =>
      simp only [hrow, bind_eq_ok] at h
      obtain ⟨_, -, _, -, h⟩ := h
      split at h
      · obtain ⟨_, hexpired, hafter⟩ := bind_eq_ok.mp h
        cases hafter
        exact completeExpiredFailure_quiet hexpired
      · cases h
        exact .refl _

theorem submitHidden_quiet {kind idempotencyKey requestHash : String} {nowUtc : Int}
    {replayable : EvaluationChallenge → ApiResult Unit}
    {score : EvaluationChallenge → ApiResult Bool} {answer : ApiResult Bool}
    (h : submitHidden env db principal jobId nodeId kind idempotencyKey requestHash nowUtc
      replayable score = .ok (after, answer)) : Quiet db after := by
  unfold submitHidden at h
  cases hrow : hiddenJobRow db jobId with
  | none => simp [hrow] at h
  | some row =>
      simp only [hrow, bind_eq_ok] at h
      obtain ⟨_, -, _, -, h⟩ := h
      split at h
      · obtain ⟨_, -, h⟩ := bind_eq_ok.mp h
        obtain ⟨_, -, hafter⟩ := bind_eq_ok.mp h
        cases hafter
        exact db.finalizeDrainingInstance_quiet _
      · split at h
        · cases h
          exact db.finalizeDrainingInstance_quiet _
        · split at h
          · obtain ⟨_, hexpired, hafter⟩ := bind_eq_ok.mp h
            cases hafter
            exact completeExpiredFailure_quiet hexpired
          · simp only [bind_eq_ok, rejectIf_eq_ok, exists_const] at h
            obtain ⟨-, _, -, hafter⟩ := h
            cases hafter
            exact db.endChallenge_quiet _ _

/-- A submission of hidden work, with its sweep. -/
theorem submitUnlessExpired_quiet {nowUtc : Int} {submit : Db → ApiResult (Db × ApiResult Bool)}
    {answer : ApiResult Bool}
    (hsubmit : ∀ {swept answer}, submit swept = .ok (after, answer) → Quiet swept after)
    (h : submitUnlessExpired env db principal jobId nodeId nowUtc submit = .ok (after, answer)) :
    Quiet db after := by
  simp only [submitUnlessExpired, bind_eq_ok] at h
  obtain ⟨⟨swept, expired⟩, hswept, h⟩ := h
  have hquiet := expireHiddenJobIfNeeded_quiet hswept
  split at h
  · cases h
    exact hquiet
  · exact hquiet.trans (hsubmit h)

end Hidden

section Claim
variable {env : Services} {lost : Prop} {db after : Db} {job : Job} {principal : Principal}
  {request : ClaimJobRequest} {context : ClaimContext}

theorem insertJobAttempt_eq_ok {new : NewJobAttempt} (h : db.insertJobAttempt new = .ok after) :
    ∃ attempt, new.checkClaimDeviceBinding = .ok attempt ∧
      db.jobAttempts.find attempt.key = none ∧ after = db.putAttempt attempt := by
  simp only [Db.insertJobAttempt, bind_eq_ok, orInternal_eq_ok, rejectIf_eq_ok, exists_const,
    not_not] at h
  obtain ⟨attempt, hattempt, hfresh, hafter⟩ := h
  cases hafter
  exact ⟨attempt, hattempt, hfresh, rfl⟩

theorem checkClaimDeviceBinding_eq_ok {new : NewJobAttempt} {attempt : JobAttempt}
    (h : new.checkClaimDeviceBinding = .ok attempt) :
    attempt.key = (new.jobId, new.attemptNumber) ∧ attempt.status = new.status ∧
      attempt.nodeId = new.nodeId ∧ some attempt.claimDeviceKeyId = new.claimDeviceKeyId ∧
      attempt.resultIdempotencyKey = none := by
  unfold NewJobAttempt.checkClaimDeviceBinding at h
  split at h
  · split at h
    · cases h
      exact ⟨rfl, rfl, rfl, by assumption |> Eq.symm, rfl⟩
    · cases h
  · cases h

/-- What the candidate query has found out about its job. -/
theorem claimCandidate_spec {locked : Uuid → Bool}
    (h : claimCandidate env db request locked = some job) :
    db.jobs.find job.id = some job ∧ job.OfferedTo env db request ∧ locked job.id = false := by
  have hmem := List.mem_of_mem_head? (Option.mem_def.mpr h)
  rw [List.mem_mergeSort, List.mem_filter] at hmem
  obtain ⟨hrow, hchosen⟩ := hmem
  rw [decide_eq_true_eq] at hchosen
  exact ⟨Table.find_of_mem hrow, hchosen.1, hchosen.2⟩

/-- Routing selects one of the instances that may run the job. -/
theorem routedInstance_spec {mi : ModelInstance} (h : routedInstance env db job = some mi) :
    mi ∈ db.workers.modelInstances.rows ∧ job.Routable env db mi := by
  have hmem := List.mem_of_mem_head? (Option.mem_def.mpr h)
  rw [(env.prioritize_perm db job _).mem_iff, nodeCohort, List.mem_filter, List.mem_filter] at hmem
  exact ⟨hmem.1.1, of_decide_eq_true hmem.1.2⟩

/-- A regulated job is only ever offered to the instance it is pinned to. -/
theorem Job.OfferedTo.pinned (h : job.OfferedTo env db request)
    (hregulated : job.confidentialityMode = .regulated) :
    job.modelInstanceId = some request.modelInstanceId := by
  obtain ⟨-, ⟨mi, hrouted, -, hid⟩, -⟩ := h
  obtain ⟨-, -, -, -, hbinds, -⟩ := routedInstance_spec hrouted
  rw [← hid]
  exact (hbinds hregulated).1.symm

/-- A claim that goes through on its candidate. -/
theorem leaseJob_moves {nowUtc : Int} {response : ClaimJobResponse}
    (found : db.jobs.find job.id = some job) (offered : job.OfferedTo env db request)
    (h : leaseJob env (expirePreviousAttempt db job) principal request job nowUtc =
      .ok (after, response)) : Moves env lost db 0 after := by
  simp only [leaseJob, bind_eq_ok] at h
  obtain ⟨inserted, hinsert, payload, -, hafter⟩ := h
  cases hafter
  obtain ⟨jobAttempts, hexpired, hattempts⟩ := expirePreviousAttempt_spec db job
  rw [hexpired] at hinsert
  obtain ⟨attempt, hbinding, hfresh, rfl⟩ := insertJobAttempt_eq_ok hinsert
  obtain ⟨hkey, hstatus, -⟩ := checkClaimDeviceBinding_eq_ok hbinding
  have hkey' : attempt.key = (job.id, saturatingSuccI32 job.attemptCount) := hkey
  have hfresh' : (db.life job).expireCurrent db.now (saturatingSuccI32 job.attemptCount) =
      none := by
    have := hattempts job.id (saturatingSuccI32 job.attemptCount)
    rw [if_pos rfl, ← hkey'] at this
    exact this.symm.trans hfresh
  have step : Life.Kept lost db.now (db.life job)
      ⟨job.leasedTo request.nodeId request.modelInstanceId (nowUtc + env.leaseDuration),
        Function.update ((db.life job).expireCurrent db.now)
          (saturatingSuccI32 job.attemptCount) (some attempt), db.receipts.find job.id⟩ :=
    .claimed offered.1 hfresh' hkey' hstatus offered.pinned
  refine .single (.kept found step (follows_of_attempts rfl fun jobId n => ?_) rfl)
  show (jobAttempts.set attempt).find (jobId, n) = _
  rw [Table.find_set, hkey']
  by_cases hid : jobId = job.id
  · subst hid
    rw [if_pos rfl]
    by_cases hn : n = saturatingSuccI32 job.attemptCount
    · subst hn
      simp [Db.life]
    · have hne : (job.id, n) ≠ (job.id, saturatingSuccI32 job.attemptCount) := by simp [hn]
      rw [if_neg hne, hattempts, if_pos rfl, Function.update_of_ne hn]
  · have hne : (jobId, n) ≠ (job.id, saturatingSuccI32 job.attemptCount) := by simp [hid]
    rw [if_neg hid, if_neg hne, hattempts, if_neg hid]

/-- The claim loses its instance on a job whose lease has expired. -/
def ClaimAbandonsLease (env : Services) (db : Db) (principal : Principal)
    (request : ClaimJobRequest) (context : ClaimContext) : Prop :=
  context.InstanceLost ∧ ∃ locked offered job,
    beginClaim env db principal request context = .ok (locked, offered, none) ∧
    claimCandidate env offered request context.lockedCandidates = some job ∧
    job.status = .leased ∧ enforceCurrentPolicy env offered locked none job.tags = .ok ()

theorem beginClaim_moves {locked : LockedNode} {hidden : Option ClaimJobResponse}
    (h : beginClaim env db principal request context = .ok (locked, after, hidden)) :
    Moves env lost db 0 after := by
  simp only [beginClaim, bind_eq_ok, reapInvalidRegulatedJobs_eq_ok] at h
  obtain ⟨_, -, _, -, _, -, reaped, hreaped, _, ⟨-, rfl⟩, _, -, ⟨offered, _⟩, hhidden, hafter⟩ := h
  cases hafter
  exact (reapExpiredTerminalLeases_moves hreaped).quiet (maybeClaimHiddenJob_quiet hhidden)

theorem claimOrdinaryJob_moves {locked : LockedNode} {outcome : ClaimOutcome}
    (hlost : ∀ job, claimCandidate env db request context.lockedCandidates = some job →
      enforceCurrentPolicy env db locked none job.tags = .ok () → context.InstanceLost →
      job.status = .leased → lost)
    (h : claimOrdinaryJob env db locked principal request context = .ok (after, outcome)) :
    Moves env lost db 0 after := by
  unfold claimOrdinaryJob at h
  cases hcandidate : claimCandidate env db request context.lockedCandidates with
  | none =>
      simp only [hcandidate] at h
      cases h
      exact .refl
  | some job =>
      obtain ⟨found, offered, -⟩ := claimCandidate_spec hcandidate
      simp only [hcandidate, bind_eq_ok] at h
      obtain ⟨_, hpolicy, h⟩ := h
      split at h
      · rename_i hinstance
        cases h
        obtain ⟨jobAttempts, hexpired, hattempts⟩ :=
          expirePreviousAttempt_spec db job
        have step : Life.Kept lost db.now (db.life job)
            ⟨job, (db.life job).expireCurrent db.now, db.receipts.find job.id⟩ :=
          .abandoned offered.1 (hlost job hcandidate hpolicy hinstance)
        have follows : Follows db
            ⟨job, (db.life job).expireCurrent db.now, db.receipts.find job.id⟩
            { db with jobAttempts, jobs := db.jobs.set job } :=
          follows_of_attempts rfl hattempts
        rw [Table.set_of_find found] at follows
        rw [hexpired]
        exact .single (.kept found step follows rfl)
      · obtain ⟨⟨leased, response⟩, hlease, hafter⟩ := bind_eq_ok.mp h
        cases hafter
        exact leaseJob_moves found offered hlease

theorem claimJob_moves {outcome : ClaimOutcome}
    (h : claimJob env db principal request context = .ok (after, outcome)) :
    Moves env (ClaimAbandonsLease env db principal request context) db 0 after := by
  simp only [claimJob, bind_eq_ok] at h
  obtain ⟨⟨locked, offered, hidden⟩, hbegin, h⟩ := h
  refine (beginClaim_moves hbegin).andThen ?_
  cases hidden with
  | some response =>
      cases h
      exact .refl
  | none =>
      refine claimOrdinaryJob_moves (fun job hcandidate hpolicy hinstance hleased => ?_) h
      exact ⟨hinstance, locked, offered, job, hbegin, hcandidate, hleased, hpolicy⟩

end Claim

section Lease
variable {env : Services} {lost : Prop} {db after : Db} {job : Job} {principal : Principal}
  {jobId nodeId : Uuid} {nowUtc : Int}

theorem leasedTask_spec {attempt : JobAttempt}
    (h : leasedTask db jobId nodeId = some (job, attempt)) :
    db.jobs.find jobId = some job ∧ job.LeasedBy nodeId db.now ∧
      db.jobAttempts.find (jobId, job.attemptCount) = some attempt := by
  simp only [leasedTask, Option.bind_eq_bind, Option.bind_eq_some_iff,
    Option.filter_eq_some_iff, decide_eq_true_eq] at h
  obtain ⟨_, ⟨hjob, hleased⟩, _, hattempt, hsome⟩ := h
  cases hsome
  exact ⟨hjob, hleased, hattempt⟩

/-- A renewal writes the new expiry to the leased attempts of its own job. -/
theorem extendAttempts_find (db : Db) (expiry : Int) (otherId : Uuid) (n : Int) :
    (db.extendAttempts jobId expiry).jobAttempts.find (otherId, n) =
      if otherId = jobId then
        (db.jobAttempts.find (otherId, n)).map fun attempt => attempt.extend expiry
      else db.jobAttempts.find (otherId, n) := by
  simp only [Db.extendAttempts, Table.find_mapRows]
  cases hfind : db.jobAttempts.find (otherId, n) with
  | none => simp
  | some attempt =>
      have hid : attempt.jobId = otherId := congrArg Prod.fst (Table.key_of_find hfind)
      by_cases hsame : otherId = jobId
      · simp only [Option.map_some, hid, hsame, if_true, true_and, JobAttempt.extend]
      · simp only [Option.map_some, hid, hsame, if_false, false_and]

theorem renewOrdinaryJob_moves {locked : LockedNode} {answer : ApiResult Int}
    (h : renewOrdinaryJob env db locked principal jobId nowUtc = .ok (after, answer)) :
    Moves env lost db 0 after := by
  unfold renewOrdinaryJob at h
  cases htask : leasedTask db jobId locked.node.id with
  | none => simp [htask] at h
  | some task =>
      obtain ⟨job, attempt⟩ := task
      obtain ⟨found, ⟨-, leased, valid⟩, -⟩ := leasedTask_spec htask
      obtain rfl := Table.key_of_find found
      simp only [htask, bind_eq_ok] at h
      obtain ⟨_, -, h⟩ := h
      split at h
      · obtain ⟨failed, hfailed, hafter⟩ := bind_eq_ok.mp h
        cases hafter
        obtain ⟨_, -, -, ends⟩ := failRegulatedLeaseAttestation_endsAs hfailed
        exact ends.moves
      · obtain ⟨_, -, hafter⟩ := bind_eq_ok.mp h
        cases hafter
        let expiry := nowUtc + env.leaseDuration
        have step : Life.Kept lost db.now (db.life job)
            ⟨{ job with leaseExpiresAt := some expiry },
              fun n => ((db.life job).attempts n).map fun attempt => attempt.extend expiry,
              db.receipts.find job.id⟩ := .renewed leased valid
        refine .single (.kept found step (follows_of_attempts rfl fun otherId n => ?_) rfl)
        refine (extendAttempts_find (db.putJob _) expiry otherId n).trans ?_
        by_cases hid : otherId = job.id
        · subst hid
          rw [if_pos rfl, if_pos rfl]
          rfl
        · rw [if_neg hid, if_neg hid]
          rfl

theorem renewJob_moves {answer : ApiResult Int}
    (h : renewJob env db principal jobId nodeId nowUtc = .ok (after, answer)) :
    Moves env lost db 0 after := by
  simp only [renewJob, bind_eq_ok] at h
  obtain ⟨kind, -, locked, -, _, -, _, -, h⟩ := h
  cases kind with
  | hidden =>
      simp only [renewHidden, bind_eq_ok] at h
      obtain ⟨⟨renewed, renewal⟩, hrenewed, h⟩ := h
      cases renewal with
      | expired =>
          cases h
          exact (renewHiddenJob_quiet hrenewed).moves
      | renewed leaseExpiresAt =>
          obtain ⟨_, -, hafter⟩ := bind_eq_ok.mp h
          cases hafter
          exact (renewHiddenJob_quiet hrenewed).moves
  | ordinary => exact renewOrdinaryJob_moves h
  | missing => exact renewOrdinaryJob_moves h

theorem leaseRows_spec {rows : LeaseRows} (h : leaseRows db jobId = some rows) :
    db.jobs.find jobId = some rows.job ∧
      rows.job.leasedToNodeId = some rows.node.id ∧
      db.workers.nodes.find rows.node.id = some rows.node ∧
      db.jobAttempts.find (jobId, rows.job.attemptCount) = some rows.attempt := by
  simp only [leaseRows, Option.bind_eq_bind, Option.bind_eq_some_iff] at h
  obtain ⟨job, hjob, node, ⟨nodeId, hnodeId, hnode⟩, attempt, hattempt, hrows⟩ := h
  cases hrows
  obtain rfl := Table.key_of_find hnode
  exact ⟨hjob, hnodeId, hnode, hattempt⟩

/-- A failure that is recorded for a leased job. -/
theorem recordFailure_moves {request : JobFailRequest} (found : db.jobs.find job.id = some job)
    (leased : job.status = .leased) (h : recordFailure db job request nowUtc = .ok after) :
    Moves env lost db 0 after := by
  simp only [recordFailure, bind_eq_ok] at h
  obtain ⟨_, -, ended, hended, hafter⟩ := h
  cases hafter
  let f (attempt : JobAttempt) : JobAttempt := attempt.recordFailure request db.now
  have ends : EndsAttempt f := fun _ => ⟨rfl, .inl rfl⟩
  obtain ⟨jobAttempts, hupdate, hattempts⟩ :=
    updateLeasedAttempt_spec db job (f := f) fun _ => rfl
  rw [hupdate] at hended
  refine Moves.quiet ?_ (Db.finalizeDrainingInstance_quiet _ _)
  unfold finishFailure at hended
  split at hended
  · rename_i hretry
    cases hended
    have step : Life.Kept lost db.now (db.life job)
        ⟨job.retried nowUtc, (db.life job).endCurrent f, db.receipts.find job.id⟩ :=
      .retried leased hretry.2 ends
    exact .single (.kept found step (follows_of_attempts rfl hattempts) rfl)
  · obtain ⟨released, hrelease, hafter⟩ := bind_eq_ok.mp hended
    obtain ⟨ledger, hmoved, rfl⟩ := releaseReservation_eq_ok hrelease
    cases hafter
    exact ended_moves { job with status := .failed } found rfl (.failed leased ends) hattempts
      hmoved

theorem failOrdinaryJob_moves {request : JobFailRequest} {response : JobFailResponse}
    (h : failOrdinaryJob db principal jobId request nowUtc = .ok (after, response)) :
    Moves env lost db 0 after := by
  unfold failOrdinaryJob at h
  cases hrecorded : recordedAttempt db jobId request.idempotencyKey with
  | some recorded =>
      obtain ⟨attempt, node⟩ := recorded
      simp only [hrecorded, bind_eq_ok] at h
      obtain ⟨_, -, hafter⟩ := h
      cases hafter
      exact .refl
  | none =>
      simp only [hrecorded, reportFailure] at h
      cases hrows : leaseRows db jobId with
      | none => simp [hrows] at h
      | some rows =>
          obtain ⟨found, -⟩ := leaseRows_spec hrows
          obtain rfl := Table.key_of_find found
          simp only [hrows, bind_eq_ok, rejectIf_eq_ok, exists_const, not_not] at h
          obtain ⟨-, leased, -, failed, hfailed, hafter⟩ := h
          cases hafter
          exact recordFailure_moves found leased hfailed

theorem jobFail_moves {request : JobFailRequest} {answer : ApiResult JobFailResponse}
    (h : jobFail env db principal jobId request nowUtc = .ok (after, answer)) :
    Moves env lost db 0 after := by
  simp only [jobFail, bind_eq_ok] at h
  obtain ⟨_, -, _, -, kind, -, h⟩ := h
  cases kind with
  | hidden =>
      obtain ⟨⟨submitted, _⟩, hsubmitted, hafter⟩ := bind_eq_ok.mp h
      cases hafter
      exact (submitUnlessExpired_quiet submitHidden_quiet hsubmitted).moves
  | ordinary =>
      obtain ⟨⟨failed, _⟩, hfailed, hafter⟩ := bind_eq_ok.mp h
      cases hafter
      exact failOrdinaryJob_moves hfailed
  | missing =>
      obtain ⟨⟨failed, _⟩, hfailed, hafter⟩ := bind_eq_ok.mp h
      cases hafter
      exact failOrdinaryJob_moves hfailed

end Lease

section Settle
variable {env : Services} {lost : Prop} {db after : Db} {rows : CompletionRows}
  {amounts : SettlementAmounts} {stamps : SettlementStamps} {hashes : EntryHashes}
  {command : CompleteJob} {jobId : Uuid}

/-- The four inserts of a settlement, in their order. -/
theorem appendEntries_inserted {schema : Schema} {ledger kept : LedgerDb} {consumer node : Uuid}
    {consumerBefore : Int}
    (h : appendEntries schema ledger stamps jobId consumer node amounts consumerBefore =
      .ok (kept, hashes)) :
    ∃ paid credited contributed,
      ledger.Inserted .quotaLedger (some consumer) "consumer_deduction"
        (-amounts.userDeductionMicro) paid ∧
      paid.Inserted .quotaLedger (some node) "node_reward" amounts.nodeQuotaMicro credited ∧
      credited.Inserted .contributionLedger (some node) "node_contribution"
        amounts.contributionMicro contributed ∧
      contributed.Inserted .reserveLedger none "settlement_inflow" amounts.reserveMicro kept := by
  simp only [appendEntries, bind_eq_ok] at h
  obtain ⟨⟨paid, _⟩, hpaid, _, -, _, -, ⟨credited, _⟩, hcredited, _, -, _, -, ⟨contributed, _⟩,
    hcontributed, _, -, ⟨_, _⟩, hkept, hafter⟩ := h
  cases hafter
  exact ⟨paid, credited, contributed, appendQuota_inserted hpaid, appendQuota_inserted hcredited,
    appendContribution_inserted hcontributed, appendReserve_inserted hkept⟩

/-- The node and the reserve share what the consumer pays. -/
theorem settlementAmounts_sum {baseCostMicro : Int}
    (h : settlementAmounts env db rows baseCostMicro = .ok amounts) :
    amounts.userDeductionMicro = amounts.nodeQuotaMicro + amounts.reserveMicro := by
  simp only [settlementAmounts, bind_eq_ok, orInternal_eq_ok] at h
  obtain ⟨base, -, calculated, hcalculated, _, -, _, -, hamounts⟩ := h
  cases hamounts
  obtain ⟨-, -, -, hsum, -⟩ := Settlement.calculate_spec hcalculated
  exact hsum.symm

theorem payJob_paid
    (hsum : amounts.userDeductionMicro = amounts.nodeQuotaMicro + amounts.reserveMicro)
    (h : payJob env db rows amounts stamps = .ok (after, hashes)) :
    ∃ ledger, Paid db.ledger rows.job.userId rows.node.userId rows.job.reservedCostMicro ledger ∧
      after = { db with ledger } := by
  simp only [payJob, bind_eq_ok] at h
  obtain ⟨_, -, _, -, _, -, released, hrelease, ⟨ledger, _⟩, hentries, hafter⟩ := h
  obtain ⟨_, hmoved, rfl⟩ := releaseReservation_eq_ok hrelease
  obtain ⟨paid, credited, contributed, hpaid, hcredited, hcontributed, hkept⟩ :=
    appendEntries_inserted hentries
  cases hafter
  exact ⟨ledger, ⟨amounts, _, paid, credited, contributed, hsum, hmoved, hpaid, hcredited,
    hcontributed, hkept⟩, rfl⟩

theorem insertReceipt_eq_ok {receipt : Receipt} (h : db.insertReceipt receipt = .ok after) :
    after = { db with receipts := db.receipts.set receipt } := by
  simp only [Db.insertReceipt, bind_eq_ok, rejectIf_eq_ok, exists_const] at h
  obtain ⟨-, -, hafter⟩ := h
  cases hafter
  rfl

/-- The life that a settlement writes. -/
theorem settled_follows (ledger : LedgerDb) (receipt : Receipt) (settled : Job)
    {attempt : JobAttempt} (new : JobAttempt) {job : Job} (hid : settled.id = job.id)
    (hfind : db.jobAttempts.find (job.id, job.attemptCount) = some attempt)
    (hkey : new.key = attempt.key) (hreceipt : receipt.jobId = job.id) :
    Follows db ⟨settled, Function.update (db.life job).attempts job.attemptCount (some new),
        some receipt⟩
      { db with
        ledger
        receipts := db.receipts.set receipt
        jobs := db.jobs.set settled
        jobAttempts := db.jobAttempts.set new } where
  now := rfl
  jobs := rfl
  attempts := by
    intro otherId n
    rw [Table.find_set, hkey, Table.key_of_find hfind, hid]
    by_cases h : otherId = job.id
    · subst h
      by_cases hn : n = job.attemptCount
      · simp [hn]
      · have hne : (job.id, n) ≠ (job.id, job.attemptCount) := by simp [hn]
        rw [if_neg hne, if_pos rfl]
        exact (Function.update_of_ne hn (some new) (db.life job).attempts).symm
    · have hne : (otherId, n) ≠ (job.id, job.attemptCount) := by simp [h]
      rw [if_neg hne, if_neg h]
  receipts := by
    intro otherId
    rw [Table.find_set, hreceipt, hid]
  workers := rfl
  grants := rfl
  releases := rfl

theorem settleJob_moves {fingerprint : String} {outcome : SettlementOutcome}
    {attempt : JobAttempt} (found : db.jobs.find rows.job.id = some rows.job)
    (leased : rows.job.status = .leased) (valid : rows.job.LeaseValid db.now)
    (held : db.jobAttempts.find (rows.job.id, rows.job.attemptCount) = some attempt)
    (h : settleJob env db rows command fingerprint stamps = .ok (after, outcome)) :
    Moves env lost db 0 after := by
  simp only [settleJob, bind_eq_ok] at h
  obtain ⟨billing, -, baseCostMicro, -, _, -, amounts, hamounts, ⟨paid, hashes⟩, hpaid,
    snapshotHash, -, receipted, hreceipted, _, -, ciphertext, -, _, -, _, -, hafter⟩ := h
  obtain ⟨ledger, hledger, rfl⟩ := payJob_paid (settlementAmounts_sum hamounts) hpaid
  obtain rfl := insertReceipt_eq_ok hreceipted
  cases hafter
  let result : JobResult := ⟨ciphertext, command.idempotencyKey, command.actualInputTokens,
    command.actualOutputTokens, fingerprint⟩
  have step (receipt : Receipt) : Life.Settled db.now (db.life rows.job)
      ⟨rows.job.settled result, Function.update (db.life rows.job).attempts
        rows.job.attemptCount (some (attempt.succeed db.now command.idempotencyKey)),
        some receipt⟩ := .settled leased valid held
  have follows (receipt : Receipt) (hreceipt : receipt.jobId = rows.job.id) :=
    settled_follows ledger receipt (rows.job.settled result)
      (attempt.succeed db.now command.idempotencyKey) rfl held rfl hreceipt
  refine Moves.quiet ?_ (Db.finalizeDrainingInstance_quiet _ _)
  simp only [Db.succeedAttempt, Db.putJob, held]
  exact .single (.settled found (step _) (follows _ rfl) hledger)

theorem completionRows_spec (h : completionRows db jobId = some rows) :
    db.jobs.find jobId = some rows.job ∧ rows.job.leasedToNodeId = some rows.node.id ∧
      rows.attempt = db.jobAttempts.find (jobId, rows.job.attemptCount) := by
  simp only [completionRows, Option.bind_eq_bind, Option.bind_eq_some_iff] at h
  obtain ⟨job, hjob, node, ⟨nodeId, hnodeId, hnode⟩, model, -, hrows⟩ := h
  cases hrows
  obtain rfl := Table.key_of_find hnode
  exact ⟨hjob, hnodeId, rfl⟩

/-- The attempt that a submitting worker holds. -/
theorem checkWorker_held {u : Unit} (h : checkWorker rows command = .ok u) :
    ∃ attempt, rows.attempt = some attempt := by
  simp only [checkWorker, bind_eq_ok, rejectIf_eq_ok, exists_const, not_or, not_not,
    Option.map_eq_some_iff] at h
  obtain ⟨-, -, -, ⟨attempt, hattempt, -⟩, -⟩ := h
  exact ⟨attempt, hattempt⟩

theorem completeLeasedJob_moves {fingerprint : String} {answer : ApiResult SettlementOutcome}
    (found : db.jobs.find command.jobId = some rows.job) (leased : rows.job.status = .leased)
    (hattempt : rows.attempt = db.jobAttempts.find (command.jobId, rows.job.attemptCount))
    {u : Unit} (hworker : checkWorker rows command = .ok u)
    (h : completeLeasedJob env db rows command fingerprint stamps = .ok (after, answer)) :
    Moves env lost db 0 after := by
  unfold completeLeasedJob at h
  split at h
  · obtain ⟨failed, hfailed, hafter⟩ := bind_eq_ok.mp h
    cases hafter
    obtain ⟨_, -, -, ends⟩ := failRegulatedLeaseAttestation_endsAs hfailed
    exact ends.moves
  · simp only [bind_eq_ok, rejectIf_eq_ok, exists_const, not_not] at h
    obtain ⟨_, -, valid, ⟨settled, outcome⟩, hsettled, hafter⟩ := h
    cases hafter
    obtain ⟨attempt, held⟩ := checkWorker_held hworker
    have hid := Table.key_of_find found
    rw [hattempt, ← hid] at held
    rw [← hid] at found
    exact settleJob_moves found leased valid held hsettled

theorem completeJob_moves {answer : ApiResult SettlementOutcome}
    (h : completeJob env db command stamps = .ok (after, answer)) :
    Moves env lost db 0 after := by
  simp only [completeJob, bind_eq_ok] at h
  obtain ⟨_, -, h⟩ := h
  cases hrows : completionRows db command.jobId with
  | none => simp [hrows] at h
  | some rows =>
      simp only [hrows, bind_eq_ok] at h
      obtain ⟨_, hworker, fingerprint, -, h⟩ := h
      obtain ⟨found, -, hattempt⟩ := completionRows_spec hrows
      split at h
      · obtain ⟨_, -, hafter⟩ := bind_eq_ok.mp h
        cases hafter
        exact .refl
      · simp only [bind_eq_ok, rejectIf_eq_ok, exists_const, not_not] at h
        obtain ⟨leased, h⟩ := h
        exact completeLeasedJob_moves found leased hattempt hworker h

theorem jobResult_moves {principal : Principal} {request : JobResultRequest} {nowUtc : Int}
    {answer : ApiResult Bool}
    (h : jobResult env db principal jobId request nowUtc stamps = .ok (after, answer)) :
    Moves env lost db 0 after := by
  simp only [jobResult, bind_eq_ok] at h
  obtain ⟨_, -, kind, -, h⟩ := h
  cases kind with
  | hidden => exact (submitUnlessExpired_quiet submitHidden_quiet h).moves
  | ordinary =>
      obtain ⟨_, -, h⟩ := bind_eq_ok.mp h
      obtain ⟨⟨settled, _⟩, hsettled, hafter⟩ := bind_eq_ok.mp h
      cases hafter
      exact completeJob_moves hsettled
  | missing =>
      obtain ⟨_, -, h⟩ := bind_eq_ok.mp h
      obtain ⟨⟨settled, _⟩, hsettled, hafter⟩ := bind_eq_ok.mp h
      cases hafter
      exact completeJob_moves hsettled

end Settle

section Grants
variable {env : Services} {lost : Prop} {db after : Db} {userId : Uuid} {stamp : Stamp}

theorem openAccount_eq_ok (h : db.openAccount env userId = .ok after) :
    db.ledger.accounts.find userId = none ∧
      after = { db with ledger := db.ledger.openAccount userId } := by
  simp only [Db.openAccount, RowOperation.execute, bind_eq_ok, orInternal_eq_ok, rejectIf_eq_ok,
    exists_const, not_not] at h
  obtain ⟨_, ⟨_, -, _, -, fresh, -, hchanges⟩, hafter⟩ := h
  cases hchanges
  cases hafter
  exact ⟨fresh, rfl⟩

/-- The quota that a login grants. -/
def bootstrapAmount (db : Db) (userId : Uuid) (initialQuota : Int) : Int :=
  if db.ledger.accounts.find userId = none then max initialQuota 0 else 0

/-- What an account is opened with. -/
theorem openBootstrap_moves {provider : String} {initialQuota : Int} {opened : Db}
    (hopened : db.openAccount env userId = .ok opened)
    (h : fundAccount env opened userId provider initialQuota stamp = .ok after) :
    Moves env lost db (max initialQuota 0) after := by
  obtain ⟨fresh, rfl⟩ := openAccount_eq_ok hopened
  have hopen : Moves env lost db 0 { db with ledger := db.ledger.openAccount userId } :=
    .single (.opened fresh)
  unfold fundAccount at h
  split at h
  · rename_i hpos
    simp only [bind_eq_ok, orInternal_eq_ok] at h
    obtain ⟨entry, hentry, written, hwritten, hafter⟩ := h
    cases hafter
    rw [max_eq_left hpos.le]
    exact hopen.andThen (.single (.credited (newEntry_inserted hentry hwritten)))
  · rename_i hneg
    cases h
    rwa [max_eq_right (not_lt.mp hneg)]

theorem bootstrapAccount_moves {provider : String} {initialQuota : Int}
    (h : bootstrapAccount env db userId provider initialQuota stamp = .ok after) :
    Moves env lost db (bootstrapAmount db userId initialQuota) after := by
  simp only [bootstrapAccount] at h
  have hknown : Quiet db (db.learnUser userId) ∧ (db.learnUser userId).ledger = db.ledger := by
    unfold Db.learnUser
    split
    · exact ⟨.refl _, rfl⟩
    · exact ⟨⟨le_rfl, rfl, rfl, rfl, rfl, .refl _, fun _ _ h => h, fun _ _ h => h⟩, rfl⟩
  obtain ⟨quiet, hledger⟩ := hknown
  rw [hledger] at h
  refine quiet.moves.andThen ?_
  unfold bootstrapAmount
  cases hfind : db.ledger.accounts.find userId with
  | some account =>
      simp only [hfind] at h
      cases h
      exact .refl
  | none =>
      simp only [hfind, bind_eq_ok] at h
      obtain ⟨opened, hopened, hfund⟩ := h
      rw [if_pos rfl]
      exact openBootstrap_moves hopened hfund

/-- The quota that a grant adds: nothing when the answer is a replay. -/
def OperatorQuotaGrantResult.granted (result : OperatorQuotaGrantResult) : Int :=
  if result.idempotentReplay = true then 0 else result.amountMicro

theorem insertGrant_quiet {grant : OperatorQuotaGrant} (h : db.insertGrant grant = .ok after) :
    Quiet db after := by
  simp only [Db.insertGrant, bind_eq_ok, rejectIf_eq_ok, exists_const] at h
  obtain ⟨-, unique, hafter⟩ := h
  cases hafter
  refine ⟨le_rfl, rfl, rfl, rfl, rfl, .refl _, fun key other hfind => ?_, fun _ _ h => h⟩
  have hne : key ≠ grant.idempotencyKey := fun heq =>
    unique ⟨other, Table.mem_of_find hfind, .inr (.inl ((Table.key_of_find hfind).trans heq))⟩
  exact (Table.find_set_ne hne).trans hfind

theorem grantOperatorQuota_moves {request : OperatorQuotaGrantRequest} {grantId : Uuid}
    {result : OperatorQuotaGrantResult}
    (h : grantOperatorQuota env db request grantId stamp = .ok (after, result)) :
    Moves env lost db result.granted after := by
  simp only [grantOperatorQuota, bind_eq_ok] at h
  obtain ⟨_, -, h⟩ := h
  cases hexisting : existingGrant db request.idempotencyKey with
  | some existing =>
      obtain ⟨grant, row⟩ := existing
      simp only [hexisting, bind_eq_ok, replayGrant] at h
      obtain ⟨_, ⟨_, -, hresult⟩, hafter⟩ := h
      cases hresult
      cases hafter
      exact .refl
  | none =>
      simp only [hexisting] at h
      split at h
      · simp only [writeGrant, bind_eq_ok, orAccounting_eq_ok, orDatabase_eq_ok] at h
        obtain ⟨_, -, entry, hentry, written, hwritten, granted, hgranted, hafter⟩ := h
        cases hafter
        exact (Moves.single (.credited (newEntry_inserted hentry hwritten))).quiet
          (insertGrant_quiet hgranted)
      · split at h <;> cases h

/-- The quota that a release takes out: nothing when the answer is a replay. -/
def ReserveReleaseOutcome.released (outcome : ReserveReleaseOutcome) : Int :=
  if outcome.idempotentReplay = true then 0 else outcome.amountMicro

theorem insertRelease_quiet {release : OperatorReserveRelease}
    (h : db.insertRelease release = .ok after) : Quiet db after := by
  simp only [Db.insertRelease, bind_eq_ok, rejectIf_eq_ok, exists_const] at h
  obtain ⟨-, unique, hafter⟩ := h
  cases hafter
  refine ⟨le_rfl, rfl, rfl, rfl, rfl, .refl _, fun _ _ h => h, fun key other hfind => ?_⟩
  have hne : key ≠ release.reserveLedgerId := fun heq =>
    unique ⟨other, Table.mem_of_find hfind, .inr (.inl ((Table.key_of_find hfind).trans heq))⟩
  exact (Table.find_set_ne hne).trans hfind

theorem releaseReserve_moves {command : ReserveReleaseCommand} {operatorAuditId : Uuid}
    {outcome : ReserveReleaseOutcome}
    (h : releaseReserve env db command operatorAuditId stamp = .ok (after, outcome)) :
    Moves env lost db (-outcome.released) after := by
  simp only [releaseReserve, bind_eq_ok] at h
  obtain ⟨_, -, h⟩ := h
  cases hexisting : existingRelease db command.idempotencyKey with
  | some existing =>
      obtain ⟨row, audit⟩ := existing
      simp only [hexisting, bind_eq_ok, replayRelease] at h
      obtain ⟨_, ⟨_, -, stored, -, hresult⟩, hafter⟩ := h
      cases hresult
      cases hafter
      exact .refl
  | none =>
      simp only [hexisting, writeRelease, bind_eq_ok, orInternal_eq_ok] at h
      obtain ⟨amount, -, before, -, ⟨_, release⟩, -, entry, hentry, written, hwritten, released,
        hreleased, hafter⟩ := h
      cases hafter
      exact (Moves.single (.withdrawn (newEntry_inserted hentry hwritten))).quiet
        (insertRelease_quiet hreleased)

end Grants

end MindOne.Coordinator

import MindOne.Coordinator.Reservations

/-!
# What the reapers leave

A reaper that goes through ends exhausted leases and nothing else, and it renews no
report. The reaper of invalid regulated jobs fails as soon as it finds one, and takes the
transaction with it in which it runs.
-/

namespace MindOne.Coordinator

open CheckedArithmetic Accounting Database KeyedTable

/-- No report changes, and time does not go back. -/
structure SameReports (db after : Db) : Prop where
  now : db.now ≤ after.now
  attestationReports : after.workers.attestationReports = db.workers.attestationReports

section Reports
variable {env : Services} {db mid after : Db}

theorem SameReports.refl (db : Db) : SameReports db db := ⟨le_rfl, rfl⟩

theorem SameReports.trans (first : SameReports db mid) (second : SameReports mid after) :
    SameReports db after :=
  ⟨first.now.trans second.now, second.attestationReports.trans first.attestationReports⟩

theorem unpublishDrained_sameReports (db : Db) (chosen : Uuid → Bool) :
    SameReports db (db.unpublishDrained chosen) := ⟨le_rfl, rfl⟩

theorem finalizeDrainingInstance_sameReports (db : Db) (modelInstanceId : Option Uuid) :
    SameReports db (db.finalizeDrainingInstance modelInstanceId) := by
  cases modelInstanceId with
  | none => exact .refl db
  | some id => exact ⟨le_rfl, rfl⟩

theorem completeExpiredFailure_sameReports {challenge : EvaluationChallenge}
    (h : completeExpiredFailure env db challenge = .ok after) : SameReports db after := by
  simp only [completeExpiredFailure, bind_eq_ok] at h
  obtain ⟨_, -, hafter⟩ := h
  cases hafter
  exact ⟨le_rfl, rfl⟩

theorem maybeClaimHiddenJob_sameReports {principal : Principal} {nodeId modelInstanceId : Uuid}
    {locked : Uuid → Bool} {draw : Option ChallengeDraw} {response : Option ClaimJobResponse}
    (h : maybeClaimHiddenJob env db principal nodeId modelInstanceId locked draw =
      .ok (after, response)) : SameReports db after := by
  simp only [maybeClaimHiddenJob, bind_eq_ok] at h
  obtain ⟨swept, hswept, h⟩ := h
  have hsweep : SameReports db swept :=
    foldlM_preserves hswept (.refl db) fun _ _ _ _ hended hsofar =>
      hsofar.trans (completeExpiredFailure_sameReports hended)
  refine hsweep.trans ?_
  split at h
  · simp only [insertChallengeClaim, bind_eq_ok] at h
    obtain ⟨_, ⟨_, -, hclaimed⟩, hafter⟩ := h
    cases hclaimed
    cases hafter
    exact ⟨le_rfl, rfl⟩
  · cases h
    exact .refl _

end Reports

section Exhausted
variable {env : Services} {db after : Db} {job : Job}

theorem updateLeasedAttempt_rest (db : Db) (jobId : Uuid) (n : Int) (f : JobAttempt → JobAttempt) :
    ∃ jobAttempts, db.updateLeasedAttempt jobId n f = { db with jobAttempts } := by
  unfold Db.updateLeasedAttempt
  split
  · split
    · exact ⟨_, rfl⟩
    · exact ⟨_, rfl⟩
  · exact ⟨_, rfl⟩

/-- One exhausted lease: its reservation and its row are written. -/
theorem reapExpiredLease_spec (h : reapExpiredLease db job = .ok after) :
    SameReports db after ∧ after.jobs = db.jobs.set { job with status := .failed } ∧
      db.releaseReservation job.userId job.reservedCostMicro =
        .ok { db with ledger := after.ledger } := by
  simp only [reapExpiredLease, bind_eq_ok] at h
  obtain ⟨released, hrelease, hafter⟩ := h
  obtain ⟨ledger, -, rfl⟩ := releaseReservation_eq_ok hrelease
  obtain ⟨jobAttempts, hupdated⟩ := updateLeasedAttempt_rest { db with ledger } job.id
    job.attemptCount fun attempt => { attempt with
      status := .expired
      finishedAt := some db.now
      errorClass := some "timeout"
      errorMessage := some "租约过期且已达到最大尝试次数" }
  rw [hupdated] at hafter
  cases hafter
  let written := Db.putJob { db with ledger, jobAttempts } { job with status := .failed }
  have quiet := written.finalizeDrainingInstance_quiet job.modelInstanceId
  have hreports := finalizeDrainingInstance_sameReports written job.modelInstanceId
  refine ⟨⟨hreports.now, hreports.attestationReports⟩, quiet.jobs, ?_⟩
  rw [quiet.ledger]
  exact hrelease

/-- Jobs that are not in the batch stay as they are. -/
theorem reapExpiredLeases_find {jobs : List Job}
    (h : jobs.foldlM reapExpiredLease db = .ok after) :
    SameReports db after ∧ ∀ id ∉ jobs.map Job.id, after.jobs.find id = db.jobs.find id := by
  induction jobs generalizing db with
  | nil =>
      cases h
      exact ⟨.refl _, fun _ _ => rfl⟩
  | cons job rest ih =>
      rw [List.foldlM_cons, bind_eq_ok] at h
      obtain ⟨mid, hmid, hrest⟩ := h
      obtain ⟨hstep, hjobs, -⟩ := reapExpiredLease_spec hmid
      have hother {id : Uuid} (hne : id ≠ job.id) : mid.jobs.find id = db.jobs.find id := by
        rw [hjobs]
        exact Table.find_set_ne hne
      obtain ⟨hreports, hsame⟩ := ih hrest
      refine ⟨hstep.trans hreports, fun id hid => ?_⟩
      rw [List.map_cons, List.mem_cons, not_or] at hid
      rw [hsame id hid.2, hother hid.1]

/-- A run of the first reaper renews no report and only ends exhausted leases. -/
theorem reapExpiredTerminalLeases_find {locked : Uuid → Bool}
    (h : reapExpiredTerminalLeases locked db = .ok after) :
    SameReports db after ∧
      ∀ job, db.jobs.find job.id = some job → ¬job.Exhausted db.now →
        after.jobs.find job.id = some job := by
  simp only [reapExpiredTerminalLeases, bind_eq_ok] at h
  obtain ⟨reaped, hreaped, hafter⟩ := h
  cases hafter
  have hbatch {other : Job} (hother : other ∈ db.reapBatch locked fun job =>
      job.Exhausted db.now) : db.jobs.find other.id = some other ∧ other.Exhausted db.now :=
    mem_reapBatch hother
  obtain ⟨hreports, hsame⟩ := reapExpiredLeases_find hreaped
  refine ⟨hreports.trans (unpublishDrained_sameReports _ _), fun job hjob hleft => ?_⟩
  have hid : job.id ∉ (db.reapBatch locked fun job => job.Exhausted db.now).map Job.id := by
    intro hmem
    obtain ⟨other, hother, hid⟩ := List.mem_map.mp hmem
    obtain ⟨hfound, hexhausted⟩ := hbatch hother
    rw [hid, hjob, Option.some.injEq] at hfound
    exact hleft (hfound ▸ hexhausted)
  exact (hsame job.id hid).trans hjob

end Exhausted

/-! ## Batches -/

section Batches
variable {db after : Db} {job : Job} {locked : Uuid → Bool} {chosen : Job → Prop}
  [DecidablePred chosen]

theorem reapBatch_ne_nil (hmem : job ∈ db.jobs.rows) (hchosen : chosen job)
    (hfree : locked job.id = false) : db.reapBatch locked chosen ≠ [] := by
  intro hnil
  have hfiltered : job ∈ db.jobs.rows.filter fun job => chosen job ∧ locked job.id = false :=
    List.mem_filter.mpr ⟨hmem, decide_eq_true ⟨hchosen, hfree⟩⟩
  have hsorted := (List.mergeSort_perm _ Job.reapedBefore).mem_iff.mpr hfiltered
  rw [Db.reapBatch, List.take_eq_nil_iff] at hnil
  rcases hnil with hzero | hempty
  · omega
  · rw [hempty] at hsorted
    cases hsorted

theorem reapBatch_eq_nil (h : ∀ job ∈ db.jobs.rows, chosen job → locked job.id = true) :
    db.reapBatch locked chosen = [] := by
  have hfiltered : (db.jobs.rows.filter fun job => chosen job ∧ locked job.id = false) = [] := by
    refine List.filter_eq_nil_iff.mpr fun job hmem hkept => ?_
    obtain ⟨hchosen, hfree⟩ := of_decide_eq_true hkept
    rw [h job hmem hchosen] at hfree
    cases hfree
  rw [Db.reapBatch, hfiltered, List.mergeSort_nil]
  rfl

/-- Every row but the one of a job is held by another transaction. -/
def lockedBut (jobId : Uuid) (id : Uuid) : Bool := id ≠ jobId

/-- Of the rows that are free the one of the job is chosen. -/
theorem filter_lockedBut (hmem : job ∈ db.jobs.rows) (hchosen : chosen job) :
    (db.jobs.rows.filter fun row => chosen row ∧ lockedBut job.id row.id = false) = [job] := by
  have hnodup : (db.jobs.rows.filter fun row =>
      chosen row ∧ lockedBut job.id row.id = false).Nodup :=
    (List.Nodup.of_map _ db.jobs.nodup).filter _
  refine List.perm_singleton.mp ((List.perm_ext_iff_of_nodup hnodup
    (List.nodup_singleton job)).mpr fun row => ?_)
  rw [List.mem_filter, decide_eq_true_eq, List.mem_singleton]
  constructor
  · rintro ⟨hrow, -, hfree⟩
    have hid : row.id = job.id := by simpa [lockedBut] using hfree
    exact List.inj_on_of_nodup_map db.jobs.nodup hrow hmem hid
  · rintro rfl
    exact ⟨hmem, hchosen, by simp [lockedBut]⟩

theorem reapBatch_lockedBut (hmem : job ∈ db.jobs.rows) (hchosen : chosen job) :
    db.reapBatch (lockedBut job.id) chosen = [job] := by
  rw [Db.reapBatch, filter_lockedBut hmem hchosen, List.mergeSort_singleton]
  rfl

end Batches

/-! ## The reaper of invalid regulated jobs -/

/-- A regulated job that waits for its node. -/
def Job.WaitsRegulated (job : Job) : Prop :=
  job.confidentialityMode = .regulated ∧ (job.status = .queued ∨ job.status = .retry)

section Invalid
variable {db after : Db} {job : Job}

/-- The rows of a waiting job are there, but its report has run out. -/
theorem Job.WaitsRegulated.bindingLost (h : job.WaitsRegulated)
    (hrows : (bindingRows db.workers job).isSome)
    (hexpired : ∀ report ∈ db.workers.attestationReports.rows, report.expiresAt ≤ db.now) :
    job.BindingLost db.workers db.now := by
  obtain ⟨rows, hrows⟩ := Option.isSome_iff_exists.mp hrows
  refine ⟨h.1, h.2, rows, hrows, ?_⟩
  simp only [bindingRows, Option.bind_eq_bind, Option.bind_eq_some_iff] at hrows
  obtain ⟨_, -, _, -, report, ⟨reportId, -, hreport⟩, hsome⟩ := hrows
  cases hsome
  have hlapsed := hexpired report (Table.mem_of_find hreport)
  exact .inr (.inr (.inr (.inr (.inr (.inr (.inr (.inr (.inl hlapsed))))))))

/-- One such job, and no run of the reaper beside which nothing else runs goes through. -/
theorem reapInvalidRegulatedJobs_fails (hmem : job ∈ db.jobs.rows)
    (hlost : job.BindingLost db.workers db.now) {locked : Uuid → Bool}
    (hfree : locked job.id = false) : reapInvalidRegulatedJobs locked db ≠ .ok after := by
  intro h
  exact reapBatch_ne_nil hmem hlost hfree (reapInvalidRegulatedJobs_eq_ok.mp h).1

theorem reapInvalidRegulatedJobs_ok (h : ∀ job ∈ db.jobs.rows, ¬job.WaitsRegulated)
    (locked : Uuid → Bool) : reapInvalidRegulatedJobs locked db = .ok db :=
  reapInvalidRegulatedJobs_eq_ok.mpr
    ⟨reapBatch_eq_nil fun job hmem hlost => absurd ⟨hlost.1, hlost.2.1⟩ (h job hmem), rfl⟩

end Invalid

/-- An exhausted lease is ended by the first reaper, and its reservation is given back. -/
theorem reapExpiredTerminalLeases_ok {env : Services} {allowed : Action → Db → Prop} {db : Db}
    {job : Job} (h : Reachable env allowed db) (hmem : job ∈ db.jobs.rows)
    (hexhausted : job.Exhausted db.now) :
    ∃ after, reapExpiredTerminalLeases (lockedBut job.id) db = .ok after ∧
      after.jobs = db.jobs.set { job with status := .failed } ∧
      after.ledger.reservedOf job.userId =
        db.ledger.reservedOf job.userId - job.reservedCostMicro := by
  obtain ⟨account, huser, hfind, hpositive, hle⟩ :=
    h.account_holds hmem (.inr (.inr hexhausted.1))
  have hrelease := releaseReservation_ok h.consistent hfind hpositive.le hle
  rw [huser] at hrelease
  cases hreaped : reapExpiredLease db job with
  | error e =>
      simp only [reapExpiredLease, hrelease, bind, Except.bind, pure, Except.pure] at hreaped
      cases hreaped
  | ok reaped =>
      obtain ⟨-, hjobs, hledger⟩ := reapExpiredLease_spec hreaped
      rw [hrelease, Except.ok.injEq] at hledger
      refine ⟨reaped.unpublishDrained fun _ => true, ?_, hjobs, ?_⟩
      · rw [reapExpiredTerminalLeases, reapBatch_lockedBut hmem hexhausted]
        simp only [List.foldlM_cons, List.foldlM_nil, hreaped, bind, Except.bind, pure,
          Except.pure]
      · have hmoved : reaped.ledger = db.ledger.moveReservation account (-job.reservedCostMicro) :=
          (congrArg Db.ledger hledger).symm
        show reaped.ledger.reservedOf job.userId = _
        rw [hmoved, ← huser, LedgerDb.reservedOf_moveReservation hfind, if_pos rfl]
        exact Int.add_neg_eq_sub

end MindOne.Coordinator

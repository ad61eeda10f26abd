import MindOne.Coordinator.Reservations

/-!
# Jobs and their attempts over whole runs

The attempts of a job are numbered without gaps, only the last one can be
leased or have succeeded, and a job that has ended stays as it is. A job and
its last attempt are leased together, except after a claim that expires the
attempt and then loses its instance. A result or a failure report from anyone
but the holder of the lease changes nothing, except a result for an expired
regulated lease whose binding is lost.
-/

namespace MindOne.Coordinator

open CheckedArithmetic Accounting Database KeyedTable

/-- How jobs, attempts and receipts belong together. -/
structure Db.AttemptsSound (db : Db) : Prop where
  numbered : ∀ job ∈ db.jobs.rows, ∀ n,
    (∃ attempt ∈ db.jobAttempts.rows, attempt.jobId = job.id ∧ attempt.attemptNumber = n) ↔
      1 ≤ n ∧ n ≤ job.attemptCount
  unrepeated : ∀ a ∈ db.jobAttempts.rows, ∀ b ∈ db.jobAttempts.rows,
    a.jobId = b.jobId → a.attemptNumber = b.attemptNumber → a = b
  bounded : ∀ job ∈ db.jobs.rows, job.attemptCount ≤ job.maxAttempts
  leased : ∀ job ∈ db.jobs.rows, job.status = .leased ↔
    ∃ attempt ∈ db.jobAttempts.rows, attempt.jobId = job.id ∧
      attempt.attemptNumber = job.attemptCount ∧ attempt.status = .leased
  leasedLast : ∀ job ∈ db.jobs.rows, ∀ attempt ∈ db.jobAttempts.rows,
    attempt.jobId = job.id → attempt.status = .leased → attempt.attemptNumber = job.attemptCount
  receipt : ∀ job ∈ db.jobs.rows,
    (∃ receipt ∈ db.receipts.rows, receipt.jobId = job.id) ↔ job.status = .succeeded
  succeeded : ∀ job ∈ db.jobs.rows, job.status = .succeeded ↔
    ∃! attempt, attempt ∈ db.jobAttempts.rows ∧ attempt.jobId = job.id ∧
      attempt.status = .succeeded
  succeededLast : ∀ job ∈ db.jobs.rows, ∀ attempt ∈ db.jobAttempts.rows,
    attempt.jobId = job.id → attempt.status = .succeeded →
      attempt.attemptNumber = job.attemptCount

section Lives
variable {db : Db} {job : Job} {attempt : JobAttempt}

theorem life_attempts {n : Int} : (db.life job).attempts n = some attempt ↔
    attempt ∈ db.jobAttempts.rows ∧ attempt.jobId = job.id ∧ attempt.attemptNumber = n := by
  have hkey : attempt.key = (job.id, n) ↔ attempt.jobId = job.id ∧ attempt.attemptNumber = n :=
    Prod.mk.injEq _ _ _ _ ▸ Iff.rfl
  exact Table.find_eq_some.trans (and_congr_right fun _ => hkey)

theorem life_receipt : (db.life job).receipt.isSome ↔
    ∃ receipt ∈ db.receipts.rows, receipt.jobId = job.id := by
  rw [Option.isSome_iff_exists]
  exact exists_congr fun _ => Table.find_eq_some

/-- An attempt that is leased or has succeeded is the last one. -/
theorem Life.WellFormed.last (h : (db.life job).WellFormed)
    (hmem : attempt ∈ db.jobAttempts.rows) (hjob : attempt.jobId = job.id)
    (hstatus : attempt.status = .leased ∨ attempt.status = .succeeded) :
    attempt.attemptNumber = job.attemptCount := by
  by_contra hne
  obtain ⟨hleased, hsucceeded⟩ := h.earlier attempt.attemptNumber attempt
    (life_attempts.mpr ⟨hmem, hjob, rfl⟩) hne
  rcases hstatus with hs | hs
  · exact hleased hs
  · exact hsucceeded hs

theorem attemptsSound_of_lives (h : db.Lives Life.Sound) : db.AttemptsSound where
  numbered := by
    intro job hjob n
    have hnumbered := (h.lives job hjob).numbered n
    rw [Option.isSome_iff_exists] at hnumbered
    exact (exists_congr fun _ => life_attempts.symm).trans hnumbered
  unrepeated := by
    intro a ha b hb hjob hn
    have hkey : a.key = b.key := Prod.ext hjob hn
    have hfind := Table.find_of_mem ha
    rw [hkey, Table.find_of_mem hb, Option.some.injEq] at hfind
    exact hfind.symm
  bounded := fun job hjob => (h.lives job hjob).attemptCount.2
  leased := by
    intro job hjob
    have hlife := h.lives job hjob
    constructor
    · intro hleased
      obtain ⟨attempt, hcurrent, hstatus⟩ := hlife.held hleased
      obtain ⟨hmem, hid, hn⟩ := life_attempts.mp hcurrent
      exact ⟨attempt, hmem, hid, hn, hstatus⟩
    · rintro ⟨attempt, hmem, hid, hn, hstatus⟩
      exact hlife.holds attempt (life_attempts.mpr ⟨hmem, hid, hn⟩) hstatus
  leasedLast := fun job hjob _ hmem hid hstatus =>
    (h.lives job hjob).toWellFormed.last hmem hid (.inl hstatus)
  receipt := fun job hjob => life_receipt.symm.trans (h.lives job hjob).receipt
  succeeded := by
    intro job hjob
    have hlife := h.lives job hjob
    rw [show job.status = .succeeded ↔ _ from hlife.succeeded]
    constructor
    · rintro ⟨attempt, hcurrent, hstatus⟩
      obtain ⟨hmem, hid, -⟩ := life_attempts.mp hcurrent
      refine ⟨attempt, ⟨hmem, hid, hstatus⟩, ?_⟩
      rintro other ⟨hother, hother', hstatus'⟩
      have hn := hlife.toWellFormed.last hother hother' (.inr hstatus')
      have hsame := life_attempts.mpr ⟨hother, hother', hn⟩
      exact Option.some.inj (hsame.symm.trans hcurrent)
    · rintro ⟨attempt, ⟨hmem, hid, hstatus⟩, -⟩
      have hn := hlife.toWellFormed.last hmem hid (.inr hstatus)
      exact ⟨attempt, life_attempts.mpr ⟨hmem, hid, hn⟩, hstatus⟩
  succeededLast := fun job hjob _ hmem hid hstatus =>
    (h.lives job hjob).toWellFormed.last hmem hid (.inr hstatus)

end Lives

section Final
variable {env : Services} {lost : Prop} {start db after : Db} {flow : Int}

/-- Every job that has ended is still the same. -/
def KeepsEnded (db after : Db) : Prop :=
  ∀ job, db.jobs.find job.id = some job → ¬ job.status.Live →
    after.jobs.find job.id = some job

theorem Transition.keepsEnded (t : Transition env lost db flow after)
    (h : KeepsEnded start db) : KeepsEnded start after := by
  intro job hstart hended
  have hjob := h job hstart hended
  have other {life : Life} {stepped : Job} (follows : Follows db life after)
      (found : db.jobs.find stepped.id = some stepped) (hid : life.job.id = stepped.id)
      (hlive : stepped.status.Live) : after.jobs.find job.id = some job := by
    rw [follows.find, hid]
    by_cases hsame : job.id = stepped.id
    · rw [hsame, found, Option.some.injEq] at hjob
      exact absurd (hjob ▸ hlive) hended
    · rw [if_neg hsame]
      exact hjob
  cases t with
  | quiet quiet => exact quiet.jobs ▸ hjob
  | opened fresh => exact hjob
  | credited inserted => exact hjob
  | withdrawn inserted => exact hjob
  | @created new _ fresh _ reserved follows =>
      rw [follows.find]
      have hne : job.id ≠ new.id := by
        intro hsame
        rw [hsame, fresh] at hjob
        cases hjob
      exact (if_neg hne).trans hjob
  | kept found step follows ledger =>
      exact other follows found (Life.Step.kept step).frozen.id step.live.1
  | @ended stepped life _ found step follows released =>
      have frozen : Life.Frozen stepped life.job :=
        (Life.Step.ended step : Life.Step lost db.now _ _).frozen
      exact other follows found frozen.id step.live.1
  | @settled stepped life _ _ found step follows paid =>
      have frozen : Life.Frozen stepped life.job :=
        (Life.Step.settled step : Life.Step lost db.now _ _).frozen
      exact other follows found frozen.id step.live.1

/-- Whatever is done later, a job that has ended stays as it is. -/
theorem ended_forever (actions : List Action) (db : Db) :
    KeepsEnded db (performAll env actions db) :=
  performAll_keeps Transition.keepsEnded actions fun _ h _ => h

end Final

/-- The device of a user holds the unexpired lease of a job through its node. -/
def HoldsLease (db : Db) (jobId nodeId userId deviceKeyId : Uuid) : Prop :=
  ∃ job node attempt, db.jobs.find jobId = some job ∧ job.LeasedBy nodeId db.now ∧
    db.workers.nodes.find nodeId = some node ∧ node.userId = userId ∧
    node.deviceKeyId = some deviceKeyId ∧
    db.jobAttempts.find (jobId, job.attemptCount) = some attempt ∧
    attempt.claimDeviceKeyId = deviceKeyId

/-- A result for an expired regulated lease whose binding is lost. -/
def CompletesExpired (db : Db) (command : CompleteJob) : Prop :=
  ∃ rows, completionRows db command.jobId = some rows ∧ checkWorker rows command = .ok () ∧
    rows.job.status = .leased ∧ ¬ rows.job.LeaseValid db.now ∧
    rows.job.confidentialityMode = .regulated ∧
    ¬ regulatedLeaseBindingValid db rows.job command.nodeId

def Action.CompletesExpired (db : Db) : Action → Prop
  | .complete command _ => Coordinator.CompletesExpired db command
  | .result principal jobId request _ _ =>
      Coordinator.CompletesExpired db (request.command principal jobId)
  | _ => False

/-- The action neither leaves a job leased without its attempt nor completes an
expired lease. -/
def Action.LeaseSafe (env : Services) (action : Action) (db : Db) : Prop :=
  ¬ action.AbandonsLease env db ∧ ¬ action.CompletesExpired db

section Holders
variable {env : Services} {db : Db}

theorem completionRows_node {jobId : Uuid} {rows : CompletionRows}
    (h : completionRows db jobId = some rows) :
    db.workers.nodes.find rows.node.id = some rows.node := by
  simp only [completionRows, Option.bind_eq_bind, Option.bind_eq_some_iff] at h
  obtain ⟨job, -, node, ⟨nodeId, -, hnode⟩, model, -, hrows⟩ := h
  cases hrows
  rwa [Table.key_of_find hnode]

/-- A worker whose submission is checked holds the lease if it has not expired. -/
theorem holdsLease_of_checkWorker {command : CompleteJob} {rows : CompletionRows} {u : Unit}
    (hrows : completionRows db command.jobId = some rows)
    (hworker : checkWorker rows command = .ok u) (leased : rows.job.status = .leased)
    (valid : rows.job.LeaseValid db.now) :
    HoldsLease db command.jobId command.nodeId command.workerUserId command.claimDeviceKeyId := by
  obtain ⟨hjob, hnode, hattempt⟩ := completionRows_spec hrows
  simp only [checkWorker, bind_eq_ok, rejectIf_eq_ok, exists_const, not_or, not_not,
    Option.map_eq_some_iff] at hworker
  obtain ⟨hleased, huser, hdevice, ⟨attempt, hsome, hkey⟩, -⟩ := hworker
  have hid : rows.node.id = command.nodeId := Option.some.inj (hnode.symm.trans hleased)
  refine ⟨rows.job, rows.node, attempt, hjob, ⟨hleased, leased, valid⟩, ?_, huser, hdevice, ?_,
    hkey⟩
  · rw [← hid]
    exact completionRows_node hrows
  · rw [← hattempt]
    exact hsome

/-- A result from anyone but the holder changes nothing. -/
theorem completeJob_of_not_holder {command : CompleteJob} {stamps : SettlementStamps}
    {after : Db} {answer : ApiResult SettlementOutcome}
    (hsafe : ¬ CompletesExpired db command)
    (hholder : ¬ HoldsLease db command.jobId command.nodeId command.workerUserId
      command.claimDeviceKeyId)
    (h : completeJob env db command stamps = .ok (after, answer)) : after = db := by
  simp only [completeJob, bind_eq_ok] at h
  obtain ⟨_, -, h⟩ := h
  cases hrows : completionRows db command.jobId with
  | none => simp [hrows] at h
  | some rows =>
      simp only [hrows, bind_eq_ok] at h
      obtain ⟨_, hworker, fingerprint, -, h⟩ := h
      split at h
      · obtain ⟨_, -, hafter⟩ := bind_eq_ok.mp h
        cases hafter
        rfl
      · simp only [bind_eq_ok, rejectIf_eq_ok, exists_const, not_not] at h
        obtain ⟨leased, h⟩ := h
        have expired : ¬ rows.job.LeaseValid db.now := fun valid =>
          hholder (holdsLease_of_checkWorker hrows hworker leased valid)
        unfold completeLeasedJob at h
        split at h
        · rename_i hlost
          exact absurd ⟨rows, hrows, hworker, leased, expired, hlost.1, hlost.2⟩ hsafe
        · simp only [bind_eq_ok, rejectIf_eq_ok, exists_const, not_not] at h
          obtain ⟨_, -, valid, -⟩ := h
          exact absurd valid expired

/-- What a check of a node's owner has found. -/
theorem verifyNodeOwner_eq_ok {nodeId : Uuid} {principal : Principal} {u : Unit}
    (h : verifyNodeOwner db nodeId principal = .ok u) :
    ∃ node, db.workers.nodes.find nodeId = some node ∧ node.userId = principal.userId ∧
      node.deviceKeyId = some principal.deviceKeyId := by
  unfold verifyNodeOwner at h
  cases hnode : db.workers.nodes.find nodeId with
  | none => simp [hnode] at h
  | some node =>
      simp only [hnode, requireNodeDeviceBinding, rejectIf_eq_ok, not_or, not_not] at h
      exact ⟨node, rfl, h.1, h.2⟩

/-- A submitted result from anyone but the holder changes nothing. -/
theorem jobResult_of_not_holder {principal : Principal} {jobId : Uuid}
    {request : JobResultRequest} {nowUtc : Int} {stamps : SettlementStamps} {after : Db}
    {answer : ApiResult Bool} (hkind : workItemKind db jobId ≠ .ok .hidden)
    (hsafe : ¬ CompletesExpired db (request.command principal jobId))
    (hholder : ¬ HoldsLease db jobId request.nodeId principal.userId principal.deviceKeyId)
    (h : jobResult env db principal jobId request nowUtc stamps = .ok (after, answer)) :
    after = db := by
  simp only [jobResult, bind_eq_ok] at h
  obtain ⟨_, -, kind, hwork, h⟩ := h
  cases kind with
  | hidden => exact absurd hwork hkind
  | ordinary =>
      obtain ⟨_, -, h⟩ := bind_eq_ok.mp h
      obtain ⟨⟨settled, _⟩, hsettled, hafter⟩ := bind_eq_ok.mp h
      cases hafter
      exact completeJob_of_not_holder hsafe hholder hsettled
  | missing =>
      obtain ⟨_, -, h⟩ := bind_eq_ok.mp h
      obtain ⟨⟨settled, _⟩, hsettled, hafter⟩ := bind_eq_ok.mp h
      cases hafter
      exact completeJob_of_not_holder hsafe hholder hsettled

theorem failOrdinaryJob_of_not_holder {principal : Principal} {jobId : Uuid}
    {request : JobFailRequest} {nowUtc : Int} {after : Db} {response : JobFailResponse} {u : Unit}
    (howner : verifyNodeOwner db request.nodeId principal = .ok u)
    (hholder : ¬ HoldsLease db jobId request.nodeId principal.userId principal.deviceKeyId)
    (h : failOrdinaryJob db principal jobId request nowUtc = .ok (after, response)) :
    after = db := by
  unfold failOrdinaryJob at h
  cases hrecorded : recordedAttempt db jobId request.idempotencyKey with
  | some recorded =>
      obtain ⟨attempt, node⟩ := recorded
      simp only [hrecorded, bind_eq_ok] at h
      obtain ⟨_, -, hafter⟩ := h
      cases hafter
      rfl
  | none =>
      simp only [hrecorded, reportFailure] at h
      cases hrows : leaseRows db jobId with
      | none => simp [hrows] at h
      | some rows =>
          simp only [hrows, bind_eq_ok, rejectIf_eq_ok, exists_const, not_not, not_or] at h
          obtain ⟨⟨huser, hnode, hbound⟩, leased, valid, -⟩ := h
          obtain ⟨hjob, hleased, hfind, hattempt⟩ := leaseRows_spec hrows
          obtain ⟨node, hfind', -, hdevice⟩ := verifyNodeOwner_eq_ok howner
          rw [hnode] at hleased hfind
          have hsame : node = rows.node := Option.some.inj (hfind'.symm.trans hfind)
          rw [hsame] at hdevice
          exact absurd ⟨rows.job, rows.node, rows.attempt, hjob, ⟨hleased, leased, valid⟩, hfind,
            huser, hdevice, hattempt, (JobAttempt.boundTo_iff.mp hbound).2⟩ hholder

/-- A failure report from anyone but the holder changes nothing. -/
theorem jobFail_of_not_holder {principal : Principal} {jobId : Uuid} {request : JobFailRequest}
    {nowUtc : Int} {after : Db} {answer : ApiResult JobFailResponse}
    (hkind : workItemKind db jobId ≠ .ok .hidden)
    (hholder : ¬ HoldsLease db jobId request.nodeId principal.userId principal.deviceKeyId)
    (h : jobFail env db principal jobId request nowUtc = .ok (after, answer)) : after = db := by
  simp only [jobFail, bind_eq_ok] at h
  obtain ⟨_, -, _, howner, kind, hwork, h⟩ := h
  cases kind with
  | hidden => exact absurd hwork hkind
  | ordinary =>
      obtain ⟨⟨failed, _⟩, hfailed, hafter⟩ := bind_eq_ok.mp h
      cases hafter
      exact failOrdinaryJob_of_not_holder howner hholder hfailed
  | missing =>
      obtain ⟨⟨failed, _⟩, hfailed, hafter⟩ := bind_eq_ok.mp h
      cases hafter
      exact failOrdinaryJob_of_not_holder howner hholder hfailed

/-- A transaction whose every outcome is the database before. -/
theorem commit_map_unchanged {ε α : Type} {x : Except ε (Db × α)}
    (h : ∀ {after answer}, x = .ok (after, answer) → after = db) :
    db.commit (x.map Prod.fst) = db := by
  cases x with
  | error e => rfl
  | ok outcome => exact h rfl

end Holders

/-- In every run whose actions abandon and complete no expired lease, jobs, attempts
and receipts belong together in every state; a job that has ended never changes
again; and results and failure reports from anyone but the holder of an unexpired
lease change nothing. -/
theorem attempts_sound {env : Services} {db : Db}
    (h : Reachable env (Action.LeaseSafe env) db) :
    db.AttemptsSound ∧
    (∀ actions job, db.jobs.find job.id = some job → ¬ job.status.Live →
      (performAll env actions db).jobs.find job.id = some job) ∧
    (∀ command stamps, (Action.complete command stamps).LeaseSafe env db →
      ¬ HoldsLease db command.jobId command.nodeId command.workerUserId
        command.claimDeviceKeyId →
      perform env (.complete command stamps) db = db) ∧
    ∀ principal jobId, workItemKind db jobId ≠ .ok .hidden →
      (∀ request nowUtc stamps,
        (Action.result principal jobId request nowUtc stamps).LeaseSafe env db →
        ¬ HoldsLease db jobId request.nodeId principal.userId principal.deviceKeyId →
        perform env (.result principal jobId request nowUtc stamps) db = db) ∧
      ∀ request nowUtc,
        ¬ HoldsLease db jobId request.nodeId principal.userId principal.deviceKeyId →
        perform env (.fail principal jobId request nowUtc) db = db := by
  have hsound : db.Lives Life.Sound :=
    h.sound_invariant (fun safe => safe.1) lives_initial fun hlost t => t.sound hlost
  refine ⟨attemptsSound_of_lives hsound, fun actions => ended_forever actions db, ?_, ?_⟩
  · intro command stamps safe hholder
    exact commit_map_unchanged (completeJob_of_not_holder safe.2 hholder)
  · intro principal jobId hkind
    constructor
    · intro request nowUtc stamps safe hholder
      exact commit_map_unchanged (jobResult_of_not_holder hkind safe.2 hholder)
    · intro request nowUtc hholder
      exact commit_map_unchanged (jobFail_of_not_holder hkind hholder)

section Sample

/-- A claim that meets no lock and no hidden work, at an instant. -/
def sampleContext (nowUtc : Int) (recheckInstance : Option ModelInstance) : ClaimContext where
  nowUtc
  lockedExhausted := fun _ => false
  lockedInvalid := fun _ => false
  lockedChallenges := fun _ => false
  lockedCandidates := fun _ => false
  hidden := none
  recheckQuarantined := false
  recheckInstance

def sampleClaim (nowUtc : Int) (recheckInstance : Option ModelInstance) : Action :=
  .claim sampleWorker ⟨.fromU128 20, .fromU128 21⟩ (sampleContext nowUtc recheckInstance)

/-- The job is created and leased. -/
def sampleLease : List Action := sampleActions ++ [sampleClaim 0 (some sampleInstance)]

/-- The lease expires, and a second claim finds its instance unpublished when it looks again. -/
def sampleAbandonment : List Action := sampleLease ++ [.passTime 100000000,
  .report (sampleWorkers 100000000),
  sampleClaim 100000000 (some { sampleInstance with status := .unpublished })]

def sampleJobId : Uuid := .fromU128 7

theorem attempts_sound_sample :
    ∃ db, Reachable sampleServices (Action.LeaseSafe sampleServices) db ∧ db.AttemptsSound ∧
      (db.jobs.find sampleJobId).map Job.status = some .leased ∧
      (db.jobAttempts.find (sampleJobId, 1)).map JobAttempt.status = some .leased := by
  have hkept : ¬ (sampleContext 0 (some sampleInstance)).InstanceLost := by decide
  have h0 : Reachable sampleServices (Action.LeaseSafe sampleServices) Db.initial := .initial
  have h1 := h0.step (.report (sampleWorkers 0)) ⟨id, id⟩
  have h2 := h1.step (.bootstrap sampleUser "github" 1000000 ⟨.fromU128 5, sampleEpoch⟩)
    ⟨id, id⟩
  have h3 := h2.step sampleCreate ⟨id, id⟩
  have hreachable := h3.step (sampleClaim 0 (some sampleInstance)) ⟨fun h => hkept h.1, id⟩
  obtain ⟨sound, -⟩ := attempts_sound hreachable
  exact ⟨_, hreachable, sound, by decide +kernel, by decide +kernel⟩

/-- A run that abandons an expired lease ends with a leased job whose last attempt
has expired. -/
theorem attempts_sound_fails :
    Reachable sampleServices Unrestricted
        (performAll sampleServices sampleAbandonment Db.initial) ∧
      ¬ (performAll sampleServices sampleAbandonment Db.initial).AttemptsSound := by
  refine ⟨.performAll .initial _, fun sound => ?_⟩
  have hjob : ((performAll sampleServices sampleAbandonment Db.initial).jobs.find sampleJobId).map
      (fun job => (job.status, job.attemptCount)) = some (.leased, 1) := by decide +kernel
  have hattempt : ((performAll sampleServices sampleAbandonment Db.initial).jobAttempts.find
      (sampleJobId, 1)).map JobAttempt.status = some .expired := by decide +kernel
  obtain ⟨job, hfind, hrow⟩ := Option.map_eq_some_iff.mp hjob
  obtain ⟨hleased, hcount⟩ := Prod.mk.inj hrow
  obtain ⟨attempt, hmem, hid, hnumber, hstatus⟩ :=
    (sound.leased job (Table.mem_of_find hfind)).mp hleased
  have hkey : attempt.key = (sampleJobId, 1) :=
    Prod.ext (hid.trans (Table.key_of_find hfind)) (hnumber.trans hcount)
  rw [← hkey, Table.find_of_mem hmem, Option.map_some, hstatus] at hattempt
  cases hattempt

end Sample

end MindOne.Coordinator

import MindOne.Stream.Completeness

/-!
# The public gateway and its time limit

The gateway waits for a job for a limited time. When the time is up it cancels
the job in a transaction and tells its client so. The transaction takes a job
that has already ended for a cancelled one, and a job that has ended may have
been settled.
-/

namespace MindOne.Stream

open CheckedArithmetic Coordinator Json KeyedTable

inductive CallPhase where
  /-- The gateway looks at the job from time to time. -/
  | waiting
  /-- It has seen that the job failed, and asks why. -/
  | describing
  | cancelling
  | answered (answer : ApiResult Value)

/-- A request that does not stream. -/
structure GatewayCall where
  principal : Principal
  jobId : Uuid
  phase : CallPhase

structure CallWorld where
  server : StreamDb
  call : GatewayCall

inductive CallEvent where
  | server (action : StreamAction)
  | poll
  /-- The time is up, wherever the gateway waits. -/
  | elapse
  | cancel

def gatewayTimeoutError (message : String) : ApiError := ⟨504, 1, "inference_timeout", message⟩

section Calls
variable (env : StreamServices)

/-- The result of a succeeded job in clear. -/
def decodeResult (job : Job) : ApiResult Value := do
  let stored ← fetchOne job.resultCiphertext
  let plaintext ← orInternal (env.decryptFromStorage job.id .result stored)
  okOr .internal (env.parseResult plaintext)

/-- One look of `wait_for_result`. -/
def pollResult (db : Db) (call : GatewayCall) : CallPhase :=
  match (db.jobs.find call.jobId).filter fun job => job.userId = call.principal.userId with
  | none => .answered (.error (.notFound "任务"))
  | some job =>
      match job.status with
      | .succeeded => .answered (decodeResult env job)
      | .failed | .cancelled => .describing
      | .queued | .retry | .leased => .waiting

def describeFailure (db : Db) (jobId : Uuid) : ApiError :=
  .unavailable "inference_failed"
    (((latestAttempt db jobId).bind JobAttempt.errorMessage).getD "远程推理任务失败")

/-- The answer of `run_gateway` after its cancellation. -/
def timeoutAnswer (cancelled : ApiResult Db) : ApiResult Value :=
  match cancelled with
  | .ok _ => .error (gatewayTimeoutError cancelledMessage)
  | .error error => .error error

namespace CallWorld

def withPhase (world : CallWorld) (phase : CallPhase) : CallWorld :=
  { world with call := { world.call with phase } }

def cancel (world : CallWorld) : CallWorld :=
  { server := performStream env (.coordinator (.cancel world.call.principal world.call.jobId))
      world.server
    call := { world.call with phase := .answered (timeoutAnswer
      (cancelTimedOutJob world.server.db world.call.principal world.call.jobId)) } }

end CallWorld

def stepCall (event : CallEvent) (world : CallWorld) : CallWorld :=
  match event, world.call.phase with
  | .server action, _ => { world with server := performStream env action world.server }
  | .poll, .waiting => world.withPhase (pollResult env world.server.db world.call)
  | .poll, .describing =>
      world.withPhase (.answered (.error (describeFailure world.server.db world.call.jobId)))
  | .elapse, .waiting => world.withPhase .cancelling
  | .elapse, .describing => world.withPhase .cancelling
  | .cancel, .cancelling => world.cancel env
  | _, _ => world

inductive CallReachable : CallWorld → Prop
  | start {server : StreamDb} (principal : Principal) (jobId : Uuid)
      (reachable : StreamReachable env server) :
      CallReachable ⟨server, principal, jobId, .waiting⟩
  | step {world : CallWorld} (event : CallEvent) (reachable : CallReachable world) :
      CallReachable (stepCall env event world)

def runCall (events : List CallEvent) (world : CallWorld) : CallWorld :=
  events.foldl (fun world event => stepCall env event world) world

end Calls

/-- What the message of a cancellation says: the job has ended without a settlement, and
its user has reserved what the other jobs hold. -/
def MessageTrue (db : Db) (jobId : Uuid) : Prop :=
  ∃ job, db.jobs.find jobId = some job ∧ (job.status = .cancelled ∨ job.status = .failed) ∧
    db.receipts.find jobId = none ∧
    db.ledger.reservedOf job.userId = db.liveReservation job.userId

def HasSucceeded (db : Db) (jobId : Uuid) : Prop :=
  ∃ job, db.jobs.find jobId = some job ∧ job.status = .succeeded

section Cancel
variable {env : StreamServices} {db after : Db} {principal : Principal} {jobId : Uuid}

/-- A cancellation leaves a job alone that has ended, and ends every other one. -/
theorem cancelTimedOutJob_spec (h : cancelTimedOutJob db principal jobId = .ok after) :
    ∃ job, db.jobs.find jobId = some job ∧
      ((¬ job.status.Live ∧ after = db) ∨
        (job.status.Live ∧ ∃ new, after.jobs.find jobId = some new ∧ new.status = .cancelled)) := by
  unfold cancelTimedOutJob at h
  cases hjob : (db.jobs.find jobId).filter fun job => job.userId = principal.userId with
  | none => simp [hjob] at h
  | some job =>
      obtain ⟨hfind, -⟩ := Option.filter_eq_some_iff.mp hjob
      obtain rfl := Table.key_of_find hfind
      simp only [hjob] at h
      by_cases hlive : job.status.Live
      · rw [if_neg (not_not.mpr hlive)] at h
        obtain ⟨released, -, hafter⟩ := bind_eq_ok.mp h
        cases hafter
        refine ⟨job, hfind, .inr ⟨hlive,
          { job with status := .cancelled, leaseExpiresAt := none }, ?_, rfl⟩⟩
        rw [(Db.finalizeDrainingInstance_quiet _ _).jobs, Db.putJob, Table.find_set, if_pos rfl]
      · rw [if_pos hlive] at h
        cases h
        exact ⟨job, hfind, .inl ⟨hlive, rfl⟩⟩

theorem orInternal_error {ε α : Type} {x : Except ε α} {error : ApiError}
    (h : orInternal x = .error error) : error = .internal := by
  cases x with
  | ok a => cases h
  | error e =>
      cases h
      rfl

theorem releaseReservation_error {userId : Uuid} {amount : Int} {error : ApiError}
    (h : db.releaseReservation userId amount = .error error) : error = .internal := by
  unfold Db.releaseReservation Db.updateAccount fetchOne at h
  cases haccount : db.ledger.accounts.find userId with
  | none =>
      rw [haccount] at h
      cases h
      rfl
  | some account =>
      rw [haccount] at h
      by_cases hless : account.reservedMicro < amount
      · simp only [bind, Except.bind, rejectIf, if_pos hless] at h
        cases h
        rfl
      · simp only [bind, Except.bind, rejectIf, if_neg hless] at h
        split at h
        · rename_i e hchange
          cases h
          exact orInternal_error hchange
        · cases h

/-- A cancellation that fails is not reported as a timeout. -/
theorem cancelTimedOutJob_error {error : ApiError}
    (h : cancelTimedOutJob db principal jobId = .error error) : error.status ≠ 504 := by
  unfold cancelTimedOutJob at h
  cases hjob : (db.jobs.find jobId).filter fun job => job.userId = principal.userId with
  | none =>
      simp only [hjob] at h
      cases h
      decide
  | some job =>
      simp only [hjob] at h
      split at h
      · cases h
      · cases hrelease : db.releaseReservation principal.userId job.reservedCostMicro with
        | ok released =>
            rw [hrelease] at h
            cases h
        | error e =>
            rw [hrelease] at h
            cases h
            rw [releaseReservation_error hrelease]
            decide

end Cancel

section Messages
variable {env : StreamServices} {server : StreamDb} {principal : Principal} {jobId : Uuid}

theorem ended_of_message {job : Job} (h : job.status = .cancelled ∨ job.status = .failed) :
    ¬ job.status.Live ∧ job.status ≠ .succeeded := by
  rcases h with h | h
  · rw [h]
    decide
  · rw [h]
    decide

/-- What the message says stays true. -/
theorem messageTrue_of_ended (reachable : StreamReachable env server) {job : Job}
    (hjob : server.db.jobs.find jobId = some job)
    (hstatus : job.status = .cancelled ∨ job.status = .failed) : MessageTrue server.db jobId := by
  obtain rfl := Table.key_of_find hjob
  have life := reachable.wellFormed.lives job (Table.mem_of_find hjob)
  have reserves : server.db.Reserves :=
    reachable.invariant Db.initial_reserves Transition.reserves
  refine ⟨job, hjob, hstatus, ?_, reserves job.userId⟩
  rw [← Option.not_isSome_iff_eq_none]
  intro hreceipt
  exact (ended_of_message hstatus).2 (life.receipt.mp hreceipt)

/-- After a confirmed cancellation the message is true for good, unless the job had been
settled before. -/
theorem message_iff (reachable : StreamReachable env server) {after : Db}
    (h : cancelTimedOutJob server.db principal jobId = .ok after) :
    (∀ actions, MessageTrue (performStreams env actions
        (performStream env (.coordinator (.cancel principal jobId)) server)).db jobId) ↔
      ¬ HasSucceeded server.db jobId := by
  have hafter : (performStream env (.coordinator (.cancel principal jobId)) server).db = after := by
    simp only [performStream, perform, h, Db.commit]
  obtain ⟨job, hjob, hcases⟩ := cancelTimedOutJob_spec h
  constructor
  · rintro htrue ⟨settled, hsettled, succeeded⟩
    obtain rfl := Option.some.inj (hjob.symm.trans hsettled)
    rcases hcases with ⟨-, hsame⟩ | ⟨hlive, -⟩
    · obtain ⟨told, htold, hstatus, -⟩ := htrue []
      simp only [performStreams, List.foldl_nil, hafter, hsame, hjob, Option.some.injEq] at htold
      subst htold
      exact (ended_of_message hstatus).2 succeeded
    · rw [succeeded] at hlive
      exact absurd hlive (by decide)
  · intro hnot actions
    have hended : ∃ new, after.jobs.find jobId = some new ∧
        (new.status = .cancelled ∨ new.status = .failed) := by
      rcases hcases with ⟨hended, hsame⟩ | ⟨-, new, hnew, hstatus⟩
      · refine ⟨job, hsame ▸ hjob, ?_⟩
        cases hstatus : job.status with
        | cancelled => exact .inl rfl
        | failed => exact .inr rfl
        | succeeded => exact absurd ⟨job, hjob, hstatus⟩ hnot
        | queued => exact absurd (.inl hstatus) hended
        | retry => exact absurd (.inr (.inl hstatus)) hended
        | leased => exact absurd (.inr (.inr hstatus)) hended
      · exact ⟨new, hnew, .inl hstatus⟩
    obtain ⟨new, hnew, hstatus⟩ := hended
    have hstep := reachable.step (.coordinator (.cancel principal jobId))
    obtain rfl := Table.key_of_find hnew
    have hkeeps (state : StreamDb) : KeepsEnded state.db (performStreams env actions state).db :=
      keepsEnded_performStreams actions state
    have hkept := hkeeps _ new (hafter ▸ hnew) (ended_of_message hstatus).1
    exact messageTrue_of_ended (hstep.performStreams actions) hkept hstatus

theorem CallReachable.reached {world : CallWorld} (h : CallReachable env world) :
    StreamReachable env world.server := by
  induction h with
  | start principal jobId reachable => exact reachable
  | @step world event _ ih =>
      unfold stepCall
      split
      · exact ih.step _
      · exact ih
      · exact ih
      · exact ih
      · exact ih
      · exact ih.step (.coordinator _)
      · exact ih

/-- The client of a stream is told of a cancellation when it has been confirmed. -/
theorem told_of_terminal {cancelled : ApiResult Db}
    (h : gatewayTimeout (cancelled.map fun _ => ()) = .error cancelledMessage) :
    ∃ after, cancelled = .ok after := by
  cases cancelled with
  | ok after => exact ⟨after, rfl⟩
  | error error =>
      have hmessage : unconfirmedMessage = cancelledMessage := Terminal.error.inj h
      exact absurd hmessage (by decide)

theorem told_of_answer {db : Db}
    (h : timeoutAnswer (cancelTimedOutJob db principal jobId) =
      .error (gatewayTimeoutError cancelledMessage)) :
    ∃ after, cancelTimedOutJob db principal jobId = .ok after := by
  cases hcancelled : cancelTimedOutJob db principal jobId with
  | ok after => exact ⟨after, rfl⟩
  | error error =>
      rw [hcancelled] at h
      have herror : error = gatewayTimeoutError cancelledMessage := Except.error.inj h
      exact absurd (congrArg ApiError.status herror) (cancelTimedOutJob_error hcancelled)

/-- In every run of the gateway, with or without a stream, what it tells its client about a
cancelled job is true in every later state exactly when the job had not been settled at the
moment of the cancellation. -/
theorem gateway_message_true :
    (∀ world, WorldReachable env world → world.consumer.phase = .cancelling →
      (stepWorld env .cancel world).consumer.state.terminal = some (.error cancelledMessage) →
      ((∀ actions, MessageTrue (performStreams env actions (stepWorld env .cancel world).server).db
          world.consumer.state.jobId) ↔
        ¬ HasSucceeded world.server.db world.consumer.state.jobId)) ∧
    ∀ world, CallReachable env world → world.call.phase = .cancelling →
      (stepCall env .cancel world).call.phase =
        .answered (.error (gatewayTimeoutError cancelledMessage)) →
      ((∀ actions, MessageTrue (performStreams env actions (stepCall env .cancel world).server).db
          world.call.jobId) ↔
        ¬ HasSucceeded world.server.db world.call.jobId) := by
  constructor
  · intro world hworld hphase htold
    simp only [stepWorld, World.cancel, hphase] at htold ⊢
    obtain ⟨after, hafter⟩ := told_of_terminal (Option.some.inj htold)
    exact message_iff hworld.sound.server hafter
  · rintro ⟨server, principal, jobId, phase⟩ hworld hphase htold
    cases phase with
    | cancelling =>
        simp only [stepCall, CallWorld.cancel, CallPhase.answered.injEq] at htold ⊢
        obtain ⟨after, hafter⟩ := told_of_answer htold
        exact message_iff hworld.reached hafter
    | waiting => cases hphase
    | describing => cases hphase
    | answered answer => cases hphase

end Messages

section Sample

/-- A client of the gateway streams the leased job. -/
def sampleClient : World :=
  ⟨performStreams sampleStreamServices (sampleLease.map .coordinator) .initial,
    .start .gateway sampleConsumer sampleJobId 0 55000000000⟩

/-- The time is up, and before the job is cancelled its worker completes it. -/
def sampleTimeout : List WorldEvent :=
  [.wake 55000000000, .server (sampleEvent 0 "stream-0" .data (some sampleData)),
    .server (sampleEvent 1 "stream-1" .upstreamDone none),
    .server (.coordinator (.bootstrap sampleWorker.userId "github" 1000000
      ⟨.fromU128 55, sampleEpoch⟩)), .server (.coordinator sampleResult)]

theorem sampleTimeout_settled :
    ((runWorld sampleStreamServices sampleTimeout sampleClient).server.db.jobs.find
      sampleJobId).any (fun job => job.status == .succeeded &&
        job.userId == sampleConsumer.userId) = true := by
  decide +kernel

/-- The client is told of a cancellation, but the job has been settled and paid for. -/
theorem gateway_message_true_fails :
    ∃ world, WorldReachable sampleStreamServices world ∧
      world.consumer.sent = [.terminal (.error cancelledMessage)] ∧
      HasSucceeded world.server.db world.consumer.state.jobId ∧
      ¬ MessageTrue world.server.db world.consumer.state.jobId := by
  have hstart : WorldReachable sampleStreamServices sampleClient :=
    .start .gateway sampleConsumer sampleJobId 0 55000000000
      (StreamReachable.initial.performStreams (sampleLease.map .coordinator))
  obtain ⟨hreachable, -⟩ := runWorld_grows sampleTimeout hstart
  obtain ⟨job, hjob, hrow⟩ := (Option.any_eq_true _ _).mp sampleTimeout_settled
  rw [Bool.and_eq_true, beq_iff_eq, beq_iff_eq] at hrow
  obtain ⟨succeeded, huser⟩ := hrow
  have hconsumer : (runWorld sampleStreamServices sampleTimeout sampleClient).consumer =
      { Consumer.start .gateway sampleConsumer sampleJobId 0 55000000000 with
        phase := .cancelling } := rfl
  generalize runWorld sampleStreamServices sampleTimeout sampleClient = world
    at hreachable hjob hconsumer
  obtain ⟨server, consumer⟩ := world
  dsimp only at hjob hconsumer
  subst hconsumer
  have hcancelled : cancelTimedOutJob server.db sampleConsumer sampleJobId = .ok server.db := by
    have hfind : (server.db.jobs.find sampleJobId).filter
        (fun job => job.userId = sampleConsumer.userId) = some job := by
      rw [hjob, Option.filter_some, if_pos (by simpa using huser)]
    have hended : ¬ job.status.Live := by
      rw [succeeded]
      decide
    simp only [cancelTimedOutJob, hfind, if_pos hended]
  have hsame : performStream sampleStreamServices
      (.coordinator (.cancel sampleConsumer sampleJobId)) server = server := by
    simp only [performStream, perform, hcancelled, Db.commit]
  have hcancel : stepWorld sampleStreamServices .cancel ⟨server,
      { Consumer.start .gateway sampleConsumer sampleJobId 0 55000000000 with
        phase := .cancelling }⟩ = ⟨server, { Consumer.start .gateway sampleConsumer sampleJobId 0
          55000000000 with
        state := (StreamState.start sampleJobId 0 55000000000).stop
          (.error cancelledMessage) }⟩ := by
    show World.mk (performStream sampleStreamServices (.coordinator (.cancel sampleConsumer
      sampleJobId)) server) { Consumer.start .gateway sampleConsumer sampleJobId 0 55000000000 with
        state := (StreamState.start sampleJobId 0 55000000000).stop (gatewayTimeout
          ((cancelTimedOutJob server.db sampleConsumer sampleJobId).map fun _ => ())) } = _
    rw [hsame, hcancelled]
    rfl
  have hstep := hreachable.step .cancel
  rw [hcancel] at hstep
  refine ⟨_, hstep.step (.wake 55000000001), rfl, ⟨job, hjob, succeeded⟩, ?_⟩
  rintro ⟨other, hother, hstatus, -⟩
  obtain rfl := Option.some.inj (hjob.symm.trans hother)
  exact (ended_of_message hstatus).2 succeeded

end Sample

end MindOne.Stream

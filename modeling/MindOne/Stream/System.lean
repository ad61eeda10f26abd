import MindOne.Stream.Framing
import MindOne.Stream.Transcript

/-!
# Runs with streams

The coordinator does whatever it does, and workers append events in any order
and any number of times. The event log is only touched by appends.
-/

namespace MindOne.Stream

open CheckedArithmetic Coordinator KeyedTable

structure StreamDb where
  db : Db
  log : EventLog

inductive StreamAction where
  | coordinator (action : Action)
  | append (principal : Principal) (jobId : Uuid) (request : JobStreamEventRequest)
      (nowUtc : Int) (order nonce : Nat)

def StreamDb.initial : StreamDb := ⟨.initial, .empty⟩

section Runs
variable (env : StreamServices)

/-- One action; a failed transaction changes nothing. -/
def performStream : StreamAction → StreamDb → StreamDb
  | .coordinator action, state =>
      { state with db := perform (env.withLog state.log) action state.db }
  | .append principal jobId request nowUtc order nonce, state =>
      match appendJobStreamEvent env state.db state.log principal jobId request nowUtc order
          nonce with
      | .ok (log, _) => { state with log }
      | .error _ => state

inductive StreamReachable : StreamDb → Prop
  | initial : StreamReachable .initial
  | step {state : StreamDb} (action : StreamAction) (reachable : StreamReachable state) :
      StreamReachable (performStream env action state)

def performStreams (actions : List StreamAction) (state : StreamDb) : StreamDb :=
  actions.foldl (fun state action => performStream env action state) state

end Runs

section Invariants
variable {env : StreamServices} {state : StreamDb}

/-- What every transition of the coordinator keeps, every action keeps. -/
theorem performStream_keeps {I : Db → Prop}
    (hstep : ∀ {env lost db flow after}, Transition env lost db flow after → I db → I after)
    (action : StreamAction) (h : I state.db) : I (performStream env action state).db := by
  cases action with
  | coordinator action => exact (perform_moves (env.withLog state.log) action state.db).keeps hstep h
  | append principal jobId request nowUtc order nonce =>
      simp only [performStream]
      split
      · exact h
      · exact h

theorem StreamReachable.invariant {I : Db → Prop} (h : StreamReachable env state)
    (hinitial : I Db.initial)
    (hstep : ∀ {env lost db flow after}, Transition env lost db flow after → I db → I after) :
    I state.db := by
  induction h with
  | initial => exact hinitial
  | step action _ ih => exact performStream_keeps hstep action ih

theorem StreamReachable.wellFormed (h : StreamReachable env state) :
    state.db.Lives Life.WellFormed := h.invariant lives_initial Transition.wellFormed

/-- What an append does to a log. -/
theorem performStream_append (env : StreamServices) (state : StreamDb) (principal : Principal)
    (jobId : Uuid) (request : JobStreamEventRequest) (nowUtc : Int) (order nonce : Nat) :
    performStream env (.append principal jobId request nowUtc order nonce) state = state ∨
      ∃ after response lease,
        performStream env (.append principal jobId request nowUtc order nonce) state =
          { state with log := after } ∧
        streamLease env state.db principal jobId request nowUtc = .ok lease ∧
        Stored env state.log jobId request after response := by
  simp only [performStream]
  split
  · rename_i log response happend
    obtain ⟨⟨lease, hlease⟩, stored⟩ := appendJobStreamEvent_spec happend
    exact .inr ⟨log, response, lease, rfl, hlease, stored⟩
  · exact .inl rfl

/-- What every append keeps of the log holds in every run. -/
theorem StreamReachable.log_invariant {I : EventLog → Prop} (h : StreamReachable env state)
    (hinitial : I .empty)
    (hstep : ∀ {log after jobId request response},
      Stored env log jobId request after response → I log → I after) : I state.log := by
  induction h with
  | initial => exact hinitial
  | @step state action _ ih =>
      cases action with
      | coordinator action => exact ih
      | append principal jobId request nowUtc order nonce =>
          rcases performStream_append env state principal jobId request nowUtc order nonce
            with hsame | ⟨after, response, lease, hafter, -, stored⟩
          · rw [hsame]
            exact ih
          · rw [hafter]
            exact hstep stored ih

theorem StreamReachable.sound (h : StreamReachable env state) (jobId : Uuid) (attempt : Int) :
    SoundLog (state.log.ofAttempt jobId attempt) :=
  h.log_invariant (I := fun log => ∀ jobId attempt, SoundLog (log.ofAttempt jobId attempt))
    (fun _ _ => .nil) Stored.sound jobId attempt

theorem StreamReachable.readable (h : StreamReachable env state) (roundTrips : env.RoundTrips) :
    state.log.Readable env :=
  h.log_invariant (fun _ hrow => (List.not_mem_nil hrow).elim)
    fun stored => stored.readable roundTrips

theorem StreamReachable.performStreams (h : StreamReachable env state)
    (actions : List StreamAction) : StreamReachable env (performStreams env actions state) := by
  induction actions generalizing state with
  | nil => exact h
  | cons action rest ih => exact ih (h.step action)

end Invariants

section Frozen
variable {env : StreamServices} {state : StreamDb} {job : Job}

/-- A job that has ended stays as it is. -/
theorem keepsEnded_performStreams (actions : List StreamAction) (state : StreamDb) :
    KeepsEnded state.db (performStreams env actions state).db := by
  have hkeeps (start : Db) : ∀ state : StreamDb, KeepsEnded start state.db →
      KeepsEnded start (performStreams env actions state).db := by
    induction actions with
    | nil => exact fun _ h => h
    | cons action rest ih =>
        exact fun state h => ih _ (performStream_keeps Transition.keepsEnded action h)
  exact hkeeps state.db state fun _ h _ => h

/-- Only a leased job has a lease to append under. -/
theorem streamLease_leased {principal : Principal} {jobId : Uuid}
    {request : JobStreamEventRequest} {nowUtc : Int} {db : Db}
    {lease : StandardJobPayload × StandardJobLimits}
    (h : streamLease env db principal jobId request nowUtc = .ok lease) :
    ∃ job, db.jobs.find jobId = some job ∧ job.status = .leased ∧
      job.attemptCount = request.attempt ∧ job.maxAttempts = 1 := by
  unfold streamLease at h
  cases hrows : (leaseRows db jobId).filter fun rows =>
      (db.workers.models.find rows.job.modelId).isSome with
  | none => simp [hrows] at h
  | some rows =>
      simp only [hrows, bind_eq_ok, rejectIf_eq_ok, exists_const, not_or, not_not,
        Bool.not_eq_false] at h
      obtain ⟨-, ⟨leased, -, hattempt⟩, -, _, -, _, -, ⟨-, hmax⟩, -⟩ := h
      obtain ⟨hfound, -⟩ := leaseRows_spec (Option.filter_eq_some_iff.mp hrows).1
      exact ⟨rows.job, hfound, leased, hattempt, hmax⟩

/-- An append changes neither a complete transcript nor the log of a job that is not leased. -/
theorem performStream_log (action : StreamAction) (jobId : Uuid) (attempt : Int)
    (h : upstreamDone (state.log.ofAttempt jobId attempt) = true ∨
      ∃ job, state.db.jobs.find jobId = some job ∧ job.status ≠ .leased) :
    (performStream env action state).log.ofAttempt jobId attempt =
      state.log.ofAttempt jobId attempt := by
  cases action with
  | coordinator action => rfl
  | append principal other request nowUtc order nonce =>
      rcases performStream_append env state principal other request nowUtc order nonce
        with hsame | ⟨after, response, lease, hafter, hlease, stored⟩
      · rw [hsame]
      · rw [hafter]
        refine stored.other ?_
        rcases h with hdone | ⟨job, hjob, hnot⟩
        · exact .inr (.inr hdone)
        · left
          rintro rfl
          obtain ⟨holder, hholder, leased, -⟩ := streamLease_leased hlease
          exact hnot (Option.some.inj (hjob.symm.trans hholder) ▸ leased)

/-- A complete transcript never changes. -/
theorem complete_forever (actions : List StreamAction) (jobId : Uuid) (attempt : Int)
    (h : upstreamDone (state.log.ofAttempt jobId attempt) = true) :
    (performStreams env actions state).log.ofAttempt jobId attempt =
      state.log.ofAttempt jobId attempt := by
  induction actions generalizing state with
  | nil => rfl
  | cons action rest ih =>
      have hsame : (performStream env action state).log.ofAttempt jobId attempt =
          state.log.ofAttempt jobId attempt := performStream_log action jobId attempt (.inl h)
      exact (ih (hsame ▸ h)).trans hsame

/-- The log of a job that has ended never changes. -/
theorem ended_log_forever (actions : List StreamAction) (attempt : Int)
    (hjob : state.db.jobs.find job.id = some job) (hended : ¬ job.status.Live) :
    (performStreams env actions state).log.ofAttempt job.id attempt =
      state.log.ofAttempt job.id attempt := by
  induction actions generalizing state with
  | nil => rfl
  | cons action rest ih =>
      have hnot : job.status ≠ .leased := fun leased => hended (.inr (.inr leased))
      have hsame : (performStream env action state).log.ofAttempt job.id attempt =
          state.log.ofAttempt job.id attempt :=
        performStream_log action job.id attempt (.inr ⟨job, hjob, hnot⟩)
      have hkept : KeepsEnded state.db (performStream env action state).db :=
        performStream_keeps Transition.keepsEnded action (fun _ h _ => h)
      exact (ih (hkept job hjob hended)).trans hsame

end Frozen

section Requests
variable {env : StreamServices} {state : StreamDb} {jobId : Uuid}

/-- A valid request under a lease is answered as the store answers it. -/
theorem appendJobStreamEvent_of_lease {principal : Principal} {request : JobStreamEventRequest}
    {nowUtc : Int} {order nonce : Nat} {lease : StandardJobPayload × StandardJobLimits}
    (owner : verifyNodeOwner state.db request.nodeId principal = .ok ())
    (valid : request.validate env.parseJson = .ok ())
    (hlease : streamLease env state.db principal jobId request nowUtc = .ok lease) :
    appendJobStreamEvent env state.db state.log principal jobId request nowUtc order nonce =
      storeStreamEvent env state.log jobId request lease.1 lease.2 order nonce := by
  simp only [appendJobStreamEvent, owner, valid, orInvalid, hlease]
  rfl

/-- A request that collides, or that is refused, leaves everything as it is. -/
theorem performStream_unchanged {principal : Principal} {request : JobStreamEventRequest}
    {nowUtc : Int} {order nonce : Nat}
    (h : collisions state.log jobId request ≠ [] ∨
      ∃ error, appendJobStreamEvent env state.db state.log principal jobId request nowUtc order
        nonce = .error error) :
    performStream env (.append principal jobId request nowUtc order nonce) state = state := by
  simp only [performStream]
  split
  · rename_i log response happend
    rcases h with hcollides | ⟨error, herror⟩
    · obtain ⟨-, stored⟩ := appendJobStreamEvent_spec happend
      cases stored with
      | replayed found same => rfl
      | added fresh new inserted => exact absurd fresh hcollides
    · rw [happend] at herror
      cases herror
  · rfl

/-- A streaming result is accepted only with a complete transcript. -/
theorem transcript_of_validateJobResult {job : Job} {request : JobResultRequest}
    (hjob : state.db.jobs.find jobId = some job) (standard : job.confidentialityMode = .standard)
    (streams : validateStandardResult env job request = .ok true)
    (h : validateJobResult env state.db state.log jobId request = .ok ()) :
    TranscriptComplete (state.log.ofAttempt jobId job.attemptCount) := by
  obtain rfl := Table.key_of_find hjob
  simp only [validateJobResult, hjob, standard, streams, bind_eq_ok, Except.ok.injEq,
    exists_eq_left', if_true, validateTranscript, rejectIf_eq_ok, exists_const, not_not] at h
  exact h.2

/-- In every run with streams, the events of every attempt are numbered without gaps,
have at most one end marker, in the last place and after some data, and keep within
the limits; a request whose place or key is taken is answered under the lease exactly
when it is the stored event again, and changes nothing, like every request that is
refused; a streaming result is accepted only when its transcript is complete, which
then never changes; and the log of a job that has ended never changes. -/
theorem stream_log_sound (roundTrips : env.RoundTrips) (h : StreamReachable env state) :
    (∀ jobId attempt, SoundLog (state.log.ofAttempt jobId attempt) ∧
      ((state.log.ofAttempt jobId attempt).filter isDone).length ≤ 1) ∧
    (∀ principal jobId request nowUtc order nonce lease,
      verifyNodeOwner state.db request.nodeId principal = .ok () →
      request.validate env.parseJson = .ok () →
      streamLease env state.db principal jobId request nowUtc = .ok lease →
      collisions state.log jobId request ≠ [] →
      ((∃ outcome, appendJobStreamEvent env state.db state.log principal jobId request nowUtc
        order nonce = .ok outcome) ↔
        ∃ row ∈ state.log.rows, SameEvent env jobId request row)) ∧
    (∀ principal jobId request nowUtc order nonce,
      (collisions state.log jobId request ≠ [] ∨
        ∃ error, appendJobStreamEvent env state.db state.log principal jobId request nowUtc order
          nonce = .error error) →
      performStream env (.append principal jobId request nowUtc order nonce) state = state) ∧
    (∀ jobId job request, state.db.jobs.find jobId = some job →
      job.confidentialityMode = .standard → validateStandardResult env job request = .ok true →
      validateJobResult env state.db state.log jobId request = .ok () →
      CompleteLog (state.log.ofAttempt jobId job.attemptCount) ∧
        ∀ actions, (performStreams env actions state).log.ofAttempt jobId job.attemptCount =
          state.log.ofAttempt jobId job.attemptCount) ∧
    ∀ job attempt actions, state.db.jobs.find job.id = some job → job.status = .succeeded →
      (performStreams env actions state).log.ofAttempt job.id attempt =
        state.log.ofAttempt job.id attempt := by
  refine ⟨fun jobId attempt => ⟨h.sound jobId attempt, (h.sound jobId attempt).done_unique⟩,
    ?_, ?_, ?_, ?_⟩
  · intro principal jobId request nowUtc order nonce lease owner valid hlease hcollides
    rw [appendJobStreamEvent_of_lease owner valid hlease]
    exact storeStreamEvent_collision (h.readable roundTrips) (validate_body valid) hcollides
  · intro principal jobId request nowUtc order nonce hrefused
    exact performStream_unchanged hrefused
  · intro jobId job request hjob standard streams hvalid
    have hdone := (transcript_of_validateJobResult hjob standard streams hvalid).upstreamDone
    exact ⟨(h.sound _ _).complete hdone, fun actions => complete_forever actions _ _ hdone⟩
  · intro job attempt actions hjob succeeded
    refine ended_log_forever actions attempt hjob fun live => ?_
    rw [succeeded] at live
    rcases live with h | h | h <;> cases h

end Requests

section Sample

def sampleEnvelope : String := "mindone-standard-aead-v1:c2FtcGxl"

/-- Services that accept everything and can encrypt one text. -/
def sampleStreamServices : StreamServices where
  toServices := { sampleServices with
    digest := fun bytes => String.ofList (hexDigits 64
      (bytes.foldl (fun sum byte => 257 * sum + byte.toNat) 0))
    validateCreateJob := fun _ => .ok ⟨"request-fingerprint", true⟩ }
  parseJson := sampleParseJson
  parsePayload := fun _ => .ok samplePayload
  validatedLimits := fun _ => .ok ⟨"m", 1, 1, true⟩
  parseResult := fun _ => some sampleValue
  encryptStreamEvent := fun _ _ _ _ text => if text = sampleData then some sampleEnvelope else none
  decryptStreamEvent := fun _ _ _ stored =>
    if stored = sampleEnvelope then some sampleData else none
  validateStandardAnswer := fun _ _ _ => .ok ()
  validateRegulatedAnswer := fun _ _ _ => .ok ()

theorem sampleStreamServices_roundTrips : sampleStreamServices.RoundTrips := by
  intro jobId attempt sequence nonce text stored h
  simp only [sampleStreamServices, Option.ite_none_right_eq_some, Option.some.injEq] at h
  obtain ⟨rfl, rfl⟩ := h
  rfl

def sampleEvent (sequence : Int) (idempotencyKey : String) (kind : JobStreamEventKind)
    (eventData : Option String) : StreamAction :=
  .append sampleWorker sampleJobId ⟨.fromU128 20, 1, sequence, idempotencyKey, kind, eventData⟩
    0 0 0

/-- A job is leased, and its stream is appended twice over. -/
def sampleStream : List StreamAction :=
  sampleLease.map .coordinator ++ [sampleEvent 0 "stream-0" .data (some sampleData),
    sampleEvent 1 "stream-1" .upstreamDone none, sampleEvent 0 "stream-0" .data (some sampleData),
    sampleEvent 2 "stream-2" .data (some sampleData)]

theorem stream_log_sound_sample :
    ∃ state, StreamReachable sampleStreamServices state ∧
      (state.log.ofAttempt sampleJobId 1).map JobStreamEventRow.eventKind =
        [.data, .upstreamDone] ∧
      ∀ actions, ((performStreams sampleStreamServices actions state).log.ofAttempt sampleJobId
        1).length ≤ 65536 := by
  have hreachable : StreamReachable sampleStreamServices
      (performStreams sampleStreamServices sampleStream .initial) :=
    StreamReachable.initial.performStreams sampleStream
  refine ⟨_, hreachable, by decide +kernel, fun actions => ?_⟩
  obtain ⟨hsound, -⟩ := stream_log_sound sampleStreamServices_roundTrips
    (hreachable.performStreams actions)
  have := (hsound sampleJobId 1).1.count
  simp only [maxJobStreamEvents] at this
  omega

end Sample

end MindOne.Stream

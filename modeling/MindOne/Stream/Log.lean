import MindOne.Coordinator.Settlement
import MindOne.Stream.Events

/-!
# The event log of a streaming job

Events are rows that are only ever added. A row is added under the lease of its
attempt, right after the rows that are there; a request that has already been
stored is answered again when everything about it is the same.
-/

namespace MindOne.Stream

open CheckedArithmetic Coordinator Json KeyedTable

def storageVersion : Int := 1

/-- A row of `job_stream_events`. -/
structure JobStreamEventRow where
  jobId : Uuid
  attemptNumber : Int
  sequenceNumber : Int
  idempotencyKey : String
  eventKind : JobStreamEventKind
  eventCiphertext : Option String
  standardEventStorageVersion : Option Int
  plaintextBytes : Int

def envelopePrefix : String := "mindone-standard-aead-v1:"

def isUrlSafe (c : Char) : Bool := c.isAlphanum || c == '-' || c == '_'

/-- `^mindone-standard-aead-v1:[A-Za-z0-9_-]+$`. -/
def isEnvelope (text : String) : Bool :=
  envelopePrefix.toList.isPrefixOf text.toList &&
    (let encoded := text.toList.drop envelopePrefix.toList.length
     !encoded.isEmpty && encoded.all isUrlSafe)

namespace JobStreamEventRow

/-- The columns of a row that the primary key holds. -/
def position (row : JobStreamEventRow) : Uuid × Int × Int :=
  (row.jobId, row.attemptNumber, row.sequenceNumber)

def requestKey (row : JobStreamEventRow) : Uuid × String := (row.jobId, row.idempotencyKey)

/-- The constraints on a single row. -/
def Checked (row : JobStreamEventRow) : Prop :=
  0 < row.attemptNumber ∧ (0 ≤ row.sequenceNumber ∧ row.sequenceNumber < 65536) ∧
    (1 ≤ row.idempotencyKey.length ∧ row.idempotencyKey.length ≤ 200) ∧
    (0 ≤ row.plaintextBytes ∧ row.plaintextBytes ≤ 65536) ∧
    ((row.eventKind = .data ∧ row.eventCiphertext.any isEnvelope = true ∧
        row.standardEventStorageVersion = some 1 ∧ 0 < row.plaintextBytes) ∨
      (row.eventKind = .upstreamDone ∧ row.eventCiphertext = none ∧
        row.standardEventStorageVersion = none ∧ row.plaintextBytes = 0))

instance (row : JobStreamEventRow) : Decidable row.Checked :=
  inferInstanceAs (Decidable (_ ∧ _))

end JobStreamEventRow

/-- The table of stream events, in the order in which they came. -/
structure EventLog where
  rows : List JobStreamEventRow
  checked : ∀ row ∈ rows, row.Checked
  positions : (rows.map JobStreamEventRow.position).Nodup
  requestKeys : (rows.map JobStreamEventRow.requestKey).Nodup

namespace EventLog

def empty : EventLog := ⟨[], fun _ h => (List.not_mem_nil h).elim, .nil, .nil⟩

/-- The events of an attempt. -/
def ofAttempt (log : EventLog) (jobId : Uuid) (attempt : Int) : List JobStreamEventRow :=
  log.rows.filter fun row => row.jobId = jobId ∧ row.attemptNumber = attempt

/-- `INSERT INTO job_stream_events`. -/
def insert (log : EventLog) (row : JobStreamEventRow) : ApiResult EventLog :=
  if h : row.Checked ∧ row.position ∉ log.rows.map JobStreamEventRow.position ∧
      row.requestKey ∉ log.rows.map JobStreamEventRow.requestKey then
    .ok {
      rows := log.rows ++ [row]
      checked := by
        intro other hother
        rcases List.mem_append.mp hother with hmem | hmem
        · exact log.checked other hmem
        · exact List.mem_singleton.mp hmem ▸ h.1
      positions := by
        rw [List.map_append, List.map_singleton]
        exact List.nodup_append.mpr ⟨log.positions, List.nodup_singleton _, fun a ha b hb heq =>
          h.2.1 (List.mem_singleton.mp hb ▸ heq ▸ ha)⟩
      requestKeys := by
        rw [List.map_append, List.map_singleton]
        exact List.nodup_append.mpr ⟨log.requestKeys, List.nodup_singleton _, fun a ha b hb heq =>
          h.2.2 (List.mem_singleton.mp hb ▸ heq ▸ ha)⟩ }
  else .error .internal

theorem insert_eq_ok {log after : EventLog} {row : JobStreamEventRow}
    (h : log.insert row = .ok after) : row.Checked ∧ after.rows = log.rows ++ [row] := by
  unfold insert at h
  split at h
  · rename_i hfresh
    cases h
    exact ⟨hfresh.1, rfl⟩
  · cases h

theorem ofAttempt_insert {log after : EventLog} {row : JobStreamEventRow}
    (h : log.insert row = .ok after) (jobId : Uuid) (attempt : Int) :
    after.ofAttempt jobId attempt = log.ofAttempt jobId attempt ++
      if row.jobId = jobId ∧ row.attemptNumber = attempt then [row] else [] := by
  rw [ofAttempt, (insert_eq_ok h).2, List.filter_append, ofAttempt]
  split <;> simp_all

theorem mem_ofAttempt {log : EventLog} {jobId : Uuid} {attempt : Int} {row : JobStreamEventRow} :
    row ∈ log.ofAttempt jobId attempt ↔
      row ∈ log.rows ∧ row.jobId = jobId ∧ row.attemptNumber = attempt := by
  rw [ofAttempt, List.mem_filter, decide_eq_true_eq]

end EventLog

structure JobStreamEventResponse where
  jobId : Uuid
  attempt : Int
  sequence : Int
  idempotentReplay : Bool
  deriving DecidableEq

/-- What the handlers of streams compute outside the database. -/
structure StreamServices extends Services where
  parseJson : String → Option Value
  /-- The payload that a decrypted text encodes. -/
  parsePayload : String → ApiResult StandardJobPayload
  validatedLimits : StandardJobPayload → Except ProtocolValidationError StandardJobLimits
  /-- The result that a decrypted text encodes. -/
  parseResult : String → Option Value
  /-- Authenticated encryption of one event, under a nonce. -/
  encryptStreamEvent : Uuid → Int → Int → Nat → String → Option String
  /-- Its inverse, for an event of the same job, attempt and position. -/
  decryptStreamEvent : Uuid → Int → Int → String → Option String
  /-- The checks of a standard result that look at no other event. -/
  validateStandardAnswer : StandardJobPayload → StandardJobLimits → JobResultRequest →
    ApiResult Unit
  validateRegulatedAnswer : Db → Job → JobResultRequest → ApiResult Unit

section Append
variable (env : StreamServices)

/-- What is encrypted for a place is decrypted at that place. -/
def StreamServices.RoundTrips (env : StreamServices) : Prop :=
  ∀ jobId attempt sequence nonce text stored,
    env.encryptStreamEvent jobId attempt sequence nonce text = some stored →
    env.decryptStreamEvent jobId attempt sequence stored = some text

def decodeStoredStandardPayload (job : Job) : ApiResult StandardJobPayload := do
  env.parsePayload (← env.decryptFromStorage job.id .payload job.encryptedPayload)

/-- An error of the protocol under the name that a handler gives it. -/
def orInvalid {α : Type} (errorType : String) (describe : ProtocolValidationError → String) :
    Except ProtocolValidationError α → ApiResult α
  | .ok a => .ok a
  | .error error => .error (.badRequest errorType (describe error))

def standardLimits (payload : StandardJobPayload) : ApiResult StandardJobLimits :=
  orInvalid "invalid_standard_payload" ProtocolValidationError.text (env.validatedLimits payload)

/-- The lease under which a request wants to add an event to a streaming job. -/
def streamLease (db : Db) (principal : Principal) (jobId : Uuid)
    (request : JobStreamEventRequest) (nowUtc : Int) :
    ApiResult (StandardJobPayload × StandardJobLimits) :=
  match (leaseRows db jobId).filter fun rows =>
      (db.workers.models.find rows.job.modelId).isSome with
  | none => .error (.notFound "任务")
  | some rows => do
      rejectIf (rows.node.userId ≠ principal.userId ∨
          rows.job.leasedToNodeId ≠ some request.nodeId ∨
          ¬ rows.attempt.BoundTo principal rows.node.userId)
        (.forbidden "任务租约不属于当前节点设备")
      rejectIf (rows.job.status ≠ .leased ∨ ¬ rows.job.LeaseValid nowUtc ∨
          rows.job.attemptCount ≠ request.attempt)
        (.conflict "stream_lease_invalid" "流式事件租约不存在、已过期或 attempt 不匹配")
      rejectIf (rows.job.confidentialityMode ≠ .standard)
        (.badRequest "stream_not_supported"
          "Regulated 任务当前不支持流式事件，且不会降级为 Standard")
      let payload ← decodeStoredStandardPayload env rows.job
      let limits ← standardLimits env payload
      rejectIf (limits.stream = false ∨ rows.job.maxAttempts ≠ 1)
        (.badRequest "stream_not_requested" "任务没有请求可恢复的 Standard SSE")
      return (payload, limits)

/-- The rows that a request collides with, by its position or by its key. -/
def collisions (log : EventLog) (jobId : Uuid) (request : JobStreamEventRequest) :
    List JobStreamEventRow :=
  log.rows.filter fun row => row.jobId = jobId ∧
    ((row.attemptNumber = request.attempt ∧ row.sequenceNumber = request.sequence) ∨
      row.idempotencyKey = request.idempotencyKey)

def streamBindingMismatch (message : String) : ApiError :=
  .conflict "idempotency_binding_mismatch" message

/-- The stored body of an event is the supplied one. -/
def replaySameBody (jobId : Uuid) (request : JobStreamEventRequest)
    (existing : JobStreamEventRow) : ApiResult Unit :=
  match request.kind with
  | .data => do
      rejectIf (existing.standardEventStorageVersion ≠ some storageVersion) .internal
      let ciphertext ← okOr .internal existing.eventCiphertext
      let plaintext ← okOr .internal
        (env.decryptStreamEvent jobId request.attempt request.sequence ciphertext)
      let supplied ← okOr .internal request.eventData
      rejectIf (plaintext ≠ supplied ∨ existing.plaintextBytes ≠ supplied.utf8ByteSize)
        (streamBindingMismatch "流式事件幂等键已绑定到不同正文")
  | .upstreamDone =>
      rejectIf (existing.eventCiphertext ≠ none ∨ existing.standardEventStorageVersion ≠ none ∨
        existing.plaintextBytes ≠ 0) .internal

def validateStreamEventReplay (jobId : Uuid) (request : JobStreamEventRequest)
    (existing : JobStreamEventRow) : ApiResult Unit := do
  rejectIf (existing.attemptNumber ≠ request.attempt ∨
      existing.sequenceNumber ≠ request.sequence ∨
      existing.idempotencyKey ≠ request.idempotencyKey ∨ existing.eventKind ≠ request.kind)
    (streamBindingMismatch "流式事件 sequence 或幂等键已绑定到不同事件")
  replaySameBody env jobId request existing

def totalBytes (rows : List JobStreamEventRow) : Int :=
  (rows.map JobStreamEventRow.plaintextBytes).sum

def isDone (row : JobStreamEventRow) : Bool := row.eventKind = .upstreamDone

def upstreamDone (rows : List JobStreamEventRow) : Bool := rows.any isDone

/-- The row of a data event that follows the given ones. -/
def dataRow (jobId : Uuid) (request : JobStreamEventRequest) (payload : StandardJobPayload)
    (limits : StandardJobLimits) (nonce : Nat) (rows : List JobStreamEventRow) :
    ApiResult JobStreamEventRow := do
  let data ← okOr .internal request.eventData
  validateStandardStreamData env.parseJson payload limits.model data
  rejectIf (maxI32 < data.utf8ByteSize) .internal
  rejectIf (maxJobStreamTotalBytes < totalBytes rows + data.utf8ByteSize)
    (.badRequest "stream_too_large" "流式事件累计正文超过安全上限")
  let stored ← okOr .internal
    (env.encryptStreamEvent jobId request.attempt request.sequence nonce data)
  return ⟨jobId, request.attempt, request.sequence, request.idempotencyKey, .data, some stored,
    some storageVersion, data.utf8ByteSize⟩

/-- The row of the end marker. -/
def doneRow (jobId : Uuid) (request : JobStreamEventRequest) (rows : List JobStreamEventRow) :
    ApiResult JobStreamEventRow := do
  rejectIf (rows = []) (.badRequest "invalid_stream_event"
    "upstream_done 之前至少需要一个真实 data 事件")
  return ⟨jobId, request.attempt, request.sequence, request.idempotencyKey, .upstreamDone, none,
    none, 0⟩

/-- The row that a request adds to its attempt. -/
def newStreamEvent (log : EventLog) (jobId : Uuid) (request : JobStreamEventRequest)
    (payload : StandardJobPayload) (limits : StandardJobLimits) (nonce : Nat) :
    ApiResult JobStreamEventRow := do
  let rows := log.ofAttempt jobId request.attempt
  rejectIf ((rows.length : Int) ≠ request.sequence ∨ maxJobStreamEvents ≤ (rows.length : Int))
    (.conflict "stream_sequence_mismatch" "流式事件必须按连续 sequence 只追加提交")
  rejectIf (upstreamDone rows = true)
    (.conflict "stream_already_done" "upstream_done 之后不得追加流式事件")
  match request.kind with
  | .data => dataRow env jobId request payload limits nonce rows
  | .upstreamDone => doneRow jobId request rows

/-- `append_job_stream_event` after its checks; when a request collides with two rows,
the order decides which one it is compared with. -/
def storeStreamEvent (log : EventLog) (jobId : Uuid) (request : JobStreamEventRequest)
    (payload : StandardJobPayload) (limits : StandardJobLimits) (order nonce : Nat) :
    ApiResult (EventLog × JobStreamEventResponse) :=
  match ((collisions log jobId request).rotate order).head? with
  | some existing => do
      validateStreamEventReplay env jobId request existing
      return (log, ⟨jobId, request.attempt, request.sequence, true⟩)
  | none => do
      let row ← newStreamEvent env log jobId request payload limits nonce
      return (← log.insert row, ⟨jobId, request.attempt, request.sequence, false⟩)

def appendJobStreamEvent (db : Db) (log : EventLog) (principal : Principal) (jobId : Uuid)
    (request : JobStreamEventRequest) (nowUtc : Int) (order nonce : Nat) :
    ApiResult (EventLog × JobStreamEventResponse) := do
  verifyNodeOwner db request.nodeId principal
  orInvalid "invalid_stream_event" (fun error => "流式事件字段无效：" ++ error.text)
    (request.validate env.parseJson)
  let (payload, limits) ← streamLease env db principal jobId request nowUtc
  storeStreamEvent env log jobId request payload limits order nonce

end Append

section Result
variable (env : StreamServices)

/-- `COALESCE(MIN(…), -1)` and `COALESCE(MAX(…), -1)` of the sequence numbers. -/
def firstSequence (rows : List JobStreamEventRow) : Int :=
  (rows.map JobStreamEventRow.sequenceNumber).min?.getD (-1)

def lastSequence (rows : List JobStreamEventRow) : Int :=
  (rows.map JobStreamEventRow.sequenceNumber).max?.getD (-1)

/-- The transcript on which a streaming job may be settled. -/
def TranscriptComplete (rows : List JobStreamEventRow) : Prop :=
  2 ≤ rows.length ∧ firstSequence rows = 0 ∧ lastSequence rows = (rows.length : Int) - 1 ∧
    (rows.filter isDone).length = 1 ∧ lastSequence (rows.filter isDone) = lastSequence rows

instance (rows : List JobStreamEventRow) : Decidable (TranscriptComplete rows) :=
  inferInstanceAs (Decidable (_ ∧ _))

/-- `validate_standard_result`, which tells whether the job is a streaming one. -/
def validateStandardResult (job : Job) (request : JobResultRequest) : ApiResult Bool := do
  let payload ← decodeStoredStandardPayload env job
  let limits ← standardLimits env payload
  env.validateStandardAnswer payload limits request
  return limits.stream

/-- The transcript of a streaming job is complete. -/
def validateTranscript (log : EventLog) (job : Job) : ApiResult Unit := do
  rejectIf (job.maxAttempts ≠ 1) .internal
  rejectIf (¬ TranscriptComplete (log.ofAttempt job.id job.attemptCount))
    (.conflict "stream_incomplete" "SSE 结果只有在连续事件和 upstream_done 已持久确认后才能结算")

def validateJobResult (db : Db) (log : EventLog) (jobId : Uuid) (request : JobResultRequest) :
    ApiResult Unit :=
  match db.jobs.find jobId with
  | none => .error (.notFound "任务")
  | some job =>
      match job.confidentialityMode with
      | .standard => do
          if ← validateStandardResult env job request then validateTranscript log job else .ok ()
      | .regulated => env.validateRegulatedAnswer db job request

/-- The services of the coordinator, whose check of a result looks at the log. -/
def StreamServices.withLog (log : EventLog) : Services :=
  { env.toServices with
    validateJobResult := fun db jobId request => Stream.validateJobResult env db log jobId request }

end Result

end MindOne.Stream

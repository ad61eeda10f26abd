import MindOne.Stream.Chunks
import MindOne.Stream.System

/-!
# Reading a stream page by page

A read takes three statements, each of which sees the database of its own
moment: the row of the job, a page of data events from a cursor on, and whether
there is more. A page holds the events that follow the cursor, so cursors and
pages fit together whatever is appended in between.
-/

namespace MindOne.Stream

open CheckedArithmetic Coordinator KeyedTable

/-- What the first statement of a read has found. -/
structure ReadHead where
  status : JobStatus
  attempt : Int
  payload : StandardJobPayload
  limits : StandardJobLimits
  errorClass : Option JobErrorClass
  errorMessage : Option String

def stableJobErrorClass (value : String) : JobErrorClass :=
  if value = "engine" then .engine
  else if value = "model" then .model
  else if value = "policy" then .policy
  else if value = "timeout" ∨ value = "lease_expired" then .timeout
  else if value = "resource_exhausted" then .resourceExhausted
  else if value = "node_disconnected" then .nodeDisconnected
  else if value = "invalid_request" then .invalidRequest
  else if value = "attestation" then .attestation
  else .internal

/-- The attempt of a job with the highest number. -/
def latestAttempt (db : Db) (jobId : Uuid) : Option JobAttempt :=
  ((db.jobAttempts.rows.filter fun attempt => attempt.jobId = jobId).mergeSort
    fun a b => b.attemptNumber ≤ a.attemptNumber).head?

section Read
variable (env : StreamServices)

/-- The first statement: the row of the job, and what it allows. -/
def readHead (db : Db) (principal : Principal) (jobId : Uuid) : ApiResult ReadHead :=
  match (db.jobs.find jobId).filter fun job => (db.workers.models.find job.modelId).isSome with
  | none => .error (.notFound "任务")
  | some job => do
      rejectIf (job.userId ≠ principal.userId) (.forbidden "只有任务消费者可读取流式输出")
      rejectIf (job.confidentialityMode ≠ .standard)
        (.badRequest "stream_not_supported"
          "Regulated 任务当前不支持流式读取，且不会降级为 Standard")
      let payload ← decodeStoredStandardPayload env job
      let limits ← standardLimits env payload
      rejectIf (limits.stream = false ∨ job.maxAttempts ≠ 1)
        (.badRequest "stream_not_requested" "任务没有请求可恢复的 Standard SSE")
      let latest := latestAttempt db jobId
      return ⟨job.status, job.attemptCount, payload, limits,
        (latest.bind JobAttempt.errorClass).map stableJobErrorClass,
        latest.bind JobAttempt.errorMessage⟩

def isData (row : JobStreamEventRow) : Bool := row.eventKind = .data

/-- The data events of an attempt from a cursor on, in the order of their numbers. -/
def dataFrom (log : EventLog) (jobId : Uuid) (attempt cursor : Int) : List JobStreamEventRow :=
  ((log.ofAttempt jobId attempt).filter fun row =>
    isData row && decide (cursor ≤ row.sequenceNumber)).mergeSort
      fun a b => a.sequenceNumber ≤ b.sequenceNumber

/-- One row of a page, as it is given out. -/
def readEvent (jobId : Uuid) (head : ReadHead) (row : JobStreamEventRow) :
    ApiResult JobStreamEvent := do
  rejectIf (row.standardEventStorageVersion ≠ some storageVersion) .internal
  let ciphertext ← okOr .internal row.eventCiphertext
  let plaintext ← okOr .internal
    (env.decryptStreamEvent jobId head.attempt row.sequenceNumber ciphertext)
  rejectIf ((plaintext.utf8ByteSize : Int) ≠ row.plaintextBytes) .internal
  validateStandardStreamData env.parseJson head.payload head.limits.model plaintext
  rejectIf (maxI32 < row.sequenceNumber + 1) .internal
  return ⟨row.sequenceNumber, plaintext⟩

/-- The events of a page and the cursor after them. -/
def readRows (jobId : Uuid) (head : ReadHead) :
    List JobStreamEventRow → Int → ApiResult (List JobStreamEvent × Int)
  | [], cursor => .ok ([], cursor)
  | row :: rows, _ => do
      let event ← readEvent env jobId head row
      let (events, cursor) ← readRows jobId head rows (row.sequenceNumber + 1)
      return (event :: events, cursor)

/-- The second statement: at most as many events as asked for. -/
def readPage (log : EventLog) (jobId : Uuid) (head : ReadHead) (cursor : Int) (limit : Nat) :
    ApiResult (List JobStreamEvent × Int) :=
  readRows env jobId head
    (if 0 < head.attempt then (dataFrom log jobId head.attempt cursor).take limit else []) cursor

/-- The third statement: whether there is more, and whether the stream has its end mark. -/
def readRest (log : EventLog) (jobId : Uuid) (head : ReadHead) (events : List JobStreamEvent)
    (cursor : Int) : ApiResult JobStreamReadResponse := do
  let more := 0 < head.attempt ∧ ∃ row ∈ log.ofAttempt jobId head.attempt,
    row.eventKind = .data ∧ cursor ≤ row.sequenceNumber
  let done := 0 < head.attempt ∧ upstreamDone (log.ofAttempt jobId head.attempt) = true
  rejectIf (head.status = .succeeded ∧ ¬ done) .internal
  return {
    jobId
    status := head.status
    attempt := head.attempt
    events
    nextSequence := cursor
    hasMore := decide more
    upstreamDone := decide done
    errorClass := head.errorClass
    errorMessage := head.errorMessage }

end Read

/-- A data event as a reader is to get it. -/
def JobStreamEventRow.event (env : StreamServices) (row : JobStreamEventRow) :
    Option JobStreamEvent :=
  (row.body env).map fun body => ⟨row.sequenceNumber, body⟩

def storedEvents (env : StreamServices) (log : EventLog) (jobId : Uuid) (attempt : Int) :
    List (Option JobStreamEvent) :=
  ((log.ofAttempt jobId attempt).filter isData).map (JobStreamEventRow.event env)

section Pages
variable {env : StreamServices} {log : EventLog} {jobId : Uuid} {head : ReadHead}
  {rows : List JobStreamEventRow} {row : JobStreamEventRow} {cursor : Int}

/-- The data events of a sound log come first, in the order of their numbers. -/
theorem SoundLog.data (h : SoundLog rows) :
    rows.filter isData = rows.take (rows.filter isData).length := by
  rcases List.eq_nil_or_concat rows with rfl | ⟨body, last, rfl⟩
  · rfl
  · rw [List.concat_eq_append] at h ⊢
    have hbody : body.filter isData = body := by
      rw [List.filter_eq_self]
      intro row hrow
      rw [isData, h.before_last row hrow]
      rfl
    rw [List.filter_append, hbody]
    cases hlast : isData last with
    | true => simp [hlast]
    | false => simp [hlast]

/-- The numbers of the data events are their positions. -/
theorem SoundLog.data_sequence (h : SoundLog rows) {n : Nat}
    (hrow : (rows.filter isData)[n]? = some row) : row.sequenceNumber = n := by
  obtain ⟨hlt, -⟩ := List.getElem?_eq_some_iff.mp hrow
  rw [h.data, List.getElem?_take_of_lt hlt] at hrow
  exact h.sequence hrow

/-- In a list whose keys count up, the keys from a number on are what is left after so many. -/
theorem filter_from {α : Type} (key : α → Int) {l : List α} {k : Nat} (n : Nat)
    (h : ∀ (i : Nat) a, l[i]? = some a → key a = (k + i : Nat)) :
    l.filter (fun a => decide ((n : Int) ≤ key a)) = l.drop (n - k) := by
  induction l generalizing k with
  | nil => simp
  | cons a l ih =>
      have hhead : key a = k := by simpa using h 0 a rfl
      have hrest := ih (k := k + 1) fun i b hb => by
        rw [h (i + 1) b (by simpa using hb)]
        congr 1
        omega
      by_cases hle : n ≤ k
      · have hkeep : decide ((n : Int) ≤ key a) = true := by
          rw [hhead]
          exact decide_eq_true (Int.ofNat_le.mpr hle)
        rw [List.filter_cons, if_pos hkeep, hrest, Nat.sub_eq_zero_of_le hle,
          Nat.sub_eq_zero_of_le (Nat.le_succ_of_le hle)]
        rfl
      · have hskip : ¬ decide ((n : Int) ≤ key a) = true := by
          rw [hhead, decide_eq_true_eq]
          omega
        have hdrop : n - k = (n - (k + 1)) + 1 := by omega
        rw [List.filter_cons, if_neg hskip, hrest, hdrop]
        rfl

/-- The events from a cursor on are what is left after so many. -/
theorem dataFrom_eq_drop {attempt : Int} (h : SoundLog (log.ofAttempt jobId attempt)) (n : Nat) :
    dataFrom log jobId attempt n = ((log.ofAttempt jobId attempt).filter isData).drop n := by
  have hfilter : ((log.ofAttempt jobId attempt).filter fun row =>
      isData row && decide ((n : Int) ≤ row.sequenceNumber)) =
        ((log.ofAttempt jobId attempt).filter isData).drop n := by
    have hfrom := filter_from JobStreamEventRow.sequenceNumber (k := 0) n
      (l := (log.ofAttempt jobId attempt).filter isData) fun i row hrow => by
        rw [h.data_sequence hrow, Nat.zero_add]
    rw [List.filter_filter] at hfrom
    rw [← Nat.sub_zero n, ← hfrom]
    exact List.filter_congr fun row _ => by rw [Bool.and_comm, Nat.sub_zero]
  rw [dataFrom, hfilter]
  refine List.mergeSort_of_pairwise ?_
  refine List.Pairwise.sublist (List.drop_sublist _ _) (List.pairwise_iff_getElem.mpr ?_)
  intro i j hi hj hlt
  rw [decide_eq_true_eq, h.data_sequence (List.getElem?_eq_getElem hi),
    h.data_sequence (List.getElem?_eq_getElem hj)]
  omega

/-- A row that is read gives the stored event. -/
theorem readEvent_spec {event : JobStreamEvent} (h : readEvent env jobId head row = .ok event)
    (hjob : row.jobId = jobId) (hattempt : row.attemptNumber = head.attempt) :
    row.event env = some event := by
  simp only [readEvent, bind_eq_ok, okOr_eq_ok, rejectIf_eq_ok, exists_const] at h
  obtain ⟨-, ciphertext, hciphertext, plaintext, hplaintext, -, _, -, -, hevent⟩ := h
  cases hevent
  rw [JobStreamEventRow.event, JobStreamEventRow.body, hciphertext, Option.bind_some, hjob,
    hattempt, hplaintext]
  rfl

theorem readRows_spec {events : List JobStreamEvent} {next : Int}
    (h : readRows env jobId head rows cursor = .ok (events, next))
    (hrows : ∀ row ∈ rows, row.jobId = jobId ∧ row.attemptNumber = head.attempt)
    (hsequence : ∀ (i : Nat) row, rows[i]? = some row → row.sequenceNumber = cursor + i) :
    events.map some = rows.map (JobStreamEventRow.event env) ∧ next = cursor + rows.length := by
  induction rows generalizing cursor events next with
  | nil =>
      cases h
      exact ⟨rfl, (add_zero _).symm⟩
  | cons row rows ih =>
      simp only [readRows, bind_eq_ok] at h
      obtain ⟨event, hevent, ⟨others, last⟩, hothers, hresult⟩ := h
      cases hresult
      obtain ⟨hjob, hattempt⟩ := hrows row List.mem_cons_self
      have hfirst : row.sequenceNumber = cursor := by simpa using hsequence 0 row rfl
      obtain ⟨hmap, hnext⟩ := ih hothers (fun other hother =>
        hrows other (List.mem_cons_of_mem row hother)) fun i other hother => by
          have := hsequence (i + 1) other (by simpa using hother)
          push_cast at this
          omega
      refine ⟨?_, ?_⟩
      · rw [List.map_cons, List.map_cons, hmap, readEvent_spec hevent hjob hattempt]
      · rw [hnext, hfirst, List.length_cons]
        push_cast
        omega

/-- A page continues where the cursor stands, and its cursor stands behind it. -/
theorem readPage_spec {events : List JobStreamEvent} {next : Int} {n limit : Nat}
    (sound : SoundLog (log.ofAttempt jobId head.attempt)) (started : 0 < head.attempt)
    (h : readPage env log jobId head n limit = .ok (events, next)) :
    events.map some = ((storedEvents env log jobId head.attempt).drop n).take limit ∧
      next = n + events.length := by
  rw [readPage, if_pos started, dataFrom_eq_drop sound] at h
  obtain ⟨hmap, hnext⟩ := readRows_spec h (fun row hrow => by
    have hmem := List.mem_filter.mp ((List.drop_subset _ _) ((List.take_subset _ _) hrow))
    exact (EventLog.mem_ofAttempt.mp hmem.1).2) fun i row hrow => by
      obtain ⟨hlt, -⟩ := List.getElem?_eq_some_iff.mp hrow
      rw [List.length_take] at hlt
      rw [List.getElem?_take_of_lt (by omega), List.getElem?_drop] at hrow
      rw [sound.data_sequence hrow]
      push_cast
      rfl
  have hlength := congrArg List.length hmap
  rw [List.length_map, List.length_map] at hlength
  refine ⟨?_, ?_⟩
  · rw [hmap, storedEvents, List.map_take, List.map_drop]
  · rw [hnext, hlength]

/-- Before the first attempt a page is empty. -/
theorem readPage_unstarted {limit : Nat} (unstarted : ¬ 0 < head.attempt) :
    readPage env log jobId head cursor limit = .ok ([], cursor) := by
  rw [readPage, if_neg unstarted]
  rfl

/-- There is no more exactly when the cursor stands behind all events. -/
theorem no_more_iff {attempt : Int} (sound : SoundLog (log.ofAttempt jobId attempt)) (n : Nat) :
    (¬ ∃ row ∈ log.ofAttempt jobId attempt, row.eventKind = .data ∧
      (n : Int) ≤ row.sequenceNumber) ↔ (storedEvents env log jobId attempt).length ≤ n := by
  have hlength : (storedEvents env log jobId attempt).length =
      ((log.ofAttempt jobId attempt).filter isData).length := List.length_map _
  rw [hlength]
  constructor
  · intro hnone
    by_contra hlt
    have hrow := List.getElem?_eq_getElem (Nat.lt_of_not_le hlt)
    have hmem := List.mem_filter.mp (List.getElem_mem (Nat.lt_of_not_le hlt))
    refine hnone ⟨_, hmem.1, by simpa [isData] using hmem.2, ?_⟩
    rw [sound.data_sequence hrow]
  · rintro hle ⟨row, hmem, hkind, hcursor⟩
    have hdata : row ∈ (log.ofAttempt jobId attempt).filter isData :=
      List.mem_filter.mpr ⟨hmem, by simp [isData, hkind]⟩
    obtain ⟨i, hi, hget⟩ := List.mem_iff_getElem.mp hdata
    have := sound.data_sequence (List.getElem?_eq_getElem hi)
    rw [hget] at this
    omega

end Pages

end MindOne.Stream

import MindOne.Coordinator.Attempts
import MindOne.Stream.Log

/-!
# The transcript of a streaming job

However requests are repeated and reordered, the events of an attempt are
numbered without gaps, their end marker comes last, and they keep within the
limits. A result is accepted only with a complete transcript, and neither a
complete transcript nor the transcript of a succeeded job ever changes.
-/

namespace MindOne.Stream

open CheckedArithmetic Coordinator KeyedTable

/-- The events of an attempt as they should be. -/
structure SoundLog (rows : List JobStreamEventRow) : Prop where
  numbered : rows.map JobStreamEventRow.sequenceNumber =
    (List.range rows.length).map (Nat.cast : Nat → Int)
  done : ∀ row ∈ rows, row.eventKind = .upstreamDone →
    rows.getLast? = some row ∧ 2 ≤ rows.length
  bytes : totalBytes rows ≤ maxJobStreamTotalBytes
  count : (rows.length : Int) ≤ maxJobStreamEvents

/-- A row that may follow. -/
structure Follower (rows : List JobStreamEventRow) (row : JobStreamEventRow) : Prop where
  sequence : row.sequenceNumber = rows.length
  room : (rows.length : Int) < maxJobStreamEvents
  unfinished : ∀ other ∈ rows, other.eventKind = .data
  bytes : totalBytes rows ≤ maxJobStreamTotalBytes →
    totalBytes rows + row.plaintextBytes ≤ maxJobStreamTotalBytes
  started : row.eventKind = .upstreamDone → rows ≠ []

section Sound
variable {rows : List JobStreamEventRow} {row : JobStreamEventRow}

theorem totalBytes_append : totalBytes (rows ++ [row]) = totalBytes rows + row.plaintextBytes := by
  simp [totalBytes]

theorem SoundLog.nil : SoundLog [] where
  numbered := rfl
  done := fun _ h => (List.not_mem_nil h).elim
  bytes := by decide
  count := by decide

theorem SoundLog.append (h : SoundLog rows) (next : Follower rows row) :
    SoundLog (rows ++ [row]) where
  numbered := by
    rw [List.map_append, h.numbered, List.length_append, List.length_singleton, List.range_succ,
      List.map_append, List.map_singleton, List.map_singleton, next.sequence]
  done := by
    intro other hother hdone
    rcases List.mem_append.mp hother with hold | hnew
    · rw [next.unfinished other hold] at hdone
      cases hdone
    · obtain rfl := List.mem_singleton.mp hnew
      have hpos := List.length_pos_iff.mpr (next.started hdone)
      refine ⟨List.getLast?_concat, ?_⟩
      rw [List.length_append, List.length_singleton]
      omega
  bytes := totalBytes_append ▸ next.bytes h.bytes
  count := by
    have := next.room
    rw [List.length_append, List.length_singleton]
    omega

/-- The sequence number of a row is its position. -/
theorem SoundLog.sequence (h : SoundLog rows) {n : Nat} (hrow : rows[n]? = some row) :
    row.sequenceNumber = n := by
  have hmap := congrArg (·[n]?) h.numbered
  simp only [List.getElem?_map, hrow, Option.map_some] at hmap
  obtain ⟨hlt, -⟩ := List.getElem?_eq_some_iff.mp hrow
  rw [List.getElem?_range hlt] at hmap
  exact Option.some.inj hmap

/-- Only the last event can be the end marker. -/
theorem SoundLog.before_last {body : List JobStreamEventRow} {last : JobStreamEventRow}
    (h : SoundLog (body ++ [last])) : ∀ row ∈ body, row.eventKind = .data := by
  intro row hrow
  cases hkind : row.eventKind with
  | data => rfl
  | upstreamDone =>
      obtain ⟨hlast, -⟩ := h.done row (List.mem_append_left _ hrow) hkind
      rw [List.getLast?_concat, Option.some.injEq] at hlast
      obtain ⟨n, hlt, hn⟩ := List.mem_iff_getElem.mp hrow
      have hearly : (body ++ [last])[n]? = some row := by
        rw [List.getElem?_append_left hlt, List.getElem?_eq_getElem hlt, hn]
      have hlate : (body ++ [last])[body.length]? = some last := List.getElem?_concat_length
      have hsame := (h.sequence hearly).symm.trans (hlast ▸ h.sequence hlate)
      omega

/-- A transcript that has its end marker. -/
def CompleteLog (rows : List JobStreamEventRow) : Prop :=
  ∃ body last, rows = body ++ [last] ∧ body ≠ [] ∧ (∀ row ∈ body, row.eventKind = .data) ∧
    last.eventKind = .upstreamDone

theorem isDone_iff : isDone row = true ↔ row.eventKind = .upstreamDone := by
  rw [isDone, decide_eq_true_eq]

theorem filter_isDone_eq_nil (h : ∀ row ∈ rows, row.eventKind = .data) :
    rows.filter isDone = [] := by
  rw [List.filter_eq_nil_iff]
  intro row hrow hdone
  rw [isDone_iff, h row hrow] at hdone
  cases hdone

/-- There is at most one end marker. -/
theorem SoundLog.done_unique (h : SoundLog rows) : (rows.filter isDone).length ≤ 1 := by
  rcases List.eq_nil_or_concat rows with rfl | ⟨body, last, rfl⟩
  · exact Nat.zero_le 1
  · rw [List.concat_eq_append] at h ⊢
    rw [List.filter_append, filter_isDone_eq_nil h.before_last, List.nil_append]
    exact List.length_filter_le _ _

/-- A sound log with an end marker is complete. -/
theorem SoundLog.complete (h : SoundLog rows) (hdone : upstreamDone rows = true) :
    CompleteLog rows := by
  obtain ⟨row, hrow, hkind⟩ := List.any_eq_true.mp hdone
  rw [isDone_iff] at hkind
  obtain ⟨hlast, hlength⟩ := h.done row hrow hkind
  obtain ⟨body, rfl⟩ := List.getLast?_eq_some_iff.mp hlast
  refine ⟨body, row, rfl, ?_, h.before_last, hkind⟩
  rintro rfl
  simp at hlength

theorem TranscriptComplete.upstreamDone (h : TranscriptComplete rows) :
    upstreamDone rows = true := by
  obtain ⟨-, -, -, hone, -⟩ := h
  obtain ⟨row, hrow⟩ := List.exists_mem_of_length_pos (l := rows.filter isDone) (by omega)
  obtain ⟨hmem, hdone⟩ := List.mem_filter.mp hrow
  exact List.any_eq_true.mpr ⟨row, hmem, hdone⟩

theorem upstreamDone_eq_false :
    upstreamDone rows = false ↔ ∀ row ∈ rows, row.eventKind = .data := by
  rw [upstreamDone, List.any_eq_false]
  refine forall₂_congr fun row _ => ?_
  cases hkind : row.eventKind <;> simp [isDone, hkind]

end Sound

section Append
variable {env : StreamServices} {log after : EventLog} {jobId : Uuid}
  {request : JobStreamEventRequest} {payload : StandardJobPayload} {limits : StandardJobLimits}
  {order nonce : Nat} {response : JobStreamEventResponse} {row : JobStreamEventRow}

/-- What a new row carries over from its request. -/
structure RowOf (jobId : Uuid) (request : JobStreamEventRequest) (row : JobStreamEventRow) :
    Prop where
  jobId : row.jobId = jobId
  attempt : row.attemptNumber = request.attempt
  sequence : row.sequenceNumber = request.sequence
  key : row.idempotencyKey = request.idempotencyKey
  kind : row.eventKind = request.kind

theorem dataRow_spec {rows : List JobStreamEventRow} (hkind : request.kind = .data)
    (h : dataRow env jobId request payload limits nonce rows = .ok row) :
    RowOf jobId request row ∧
      totalBytes rows + row.plaintextBytes ≤ maxJobStreamTotalBytes ∧
      ∃ data stored, request.eventData = some data ∧ row.eventCiphertext = some stored ∧
        row.plaintextBytes = data.utf8ByteSize ∧
        env.encryptStreamEvent jobId request.attempt request.sequence nonce data = some stored := by
  simp only [dataRow, bind_eq_ok, okOr_eq_ok, rejectIf_eq_ok, exists_const, not_lt] at h
  obtain ⟨data, hdata, _, -, -, hbytes, stored, hstored, hrow⟩ := h
  cases hrow
  exact ⟨⟨rfl, rfl, rfl, rfl, hkind.symm⟩, hbytes, data, stored, hdata, rfl, rfl, hstored⟩

theorem doneRow_spec {rows : List JobStreamEventRow} (hkind : request.kind = .upstreamDone)
    (h : doneRow jobId request rows = .ok row) :
    RowOf jobId request row ∧ rows ≠ [] ∧ row.plaintextBytes = 0 := by
  simp only [doneRow, bind_eq_ok, rejectIf_eq_ok, exists_const] at h
  obtain ⟨hrows, hrow⟩ := h
  cases hrow
  exact ⟨⟨rfl, rfl, rfl, rfl, hkind.symm⟩, hrows, rfl⟩

/-- What a new row of a log is. -/
structure NewRow (env : StreamServices) (log : EventLog) (jobId : Uuid)
    (request : JobStreamEventRequest) (row : JobStreamEventRow) : Prop where
  carried : RowOf jobId request row
  follows : Follower (log.ofAttempt jobId request.attempt) row
  body : row.eventKind = .data → ∃ data stored nonce, request.eventData = some data ∧
    row.eventCiphertext = some stored ∧ row.plaintextBytes = data.utf8ByteSize ∧
    env.encryptStreamEvent jobId request.attempt request.sequence nonce data = some stored

theorem newStreamEvent_spec
    (h : newStreamEvent env log jobId request payload limits nonce = .ok row) :
    NewRow env log jobId request row := by
  simp only [newStreamEvent, bind_eq_ok, rejectIf_eq_ok, exists_const, not_or, not_not,
    Bool.not_eq_true, upstreamDone_eq_false, not_le] at h
  obtain ⟨⟨hlength, hroom⟩, hopen, h⟩ := h
  cases hkind : request.kind with
  | data =>
      simp only [hkind] at h
      obtain ⟨carried, hbytes, data, stored, hdata, hstored, hlen, hencrypt⟩ := dataRow_spec hkind h
      refine ⟨carried, ⟨carried.sequence.trans hlength.symm, hroom, hopen, fun _ => hbytes,
        fun hdone => ?_⟩,
        fun _ => ⟨data, stored, nonce, hdata, hstored, hlen, hencrypt⟩⟩
      rw [carried.kind, hkind] at hdone
      cases hdone
  | upstreamDone =>
      simp only [hkind] at h
      obtain ⟨carried, hrows, hbytes⟩ := doneRow_spec hkind h
      refine ⟨carried, ⟨carried.sequence.trans hlength.symm, hroom, hopen, fun hle => ?_,
        fun _ => hrows⟩, fun hdata => ?_⟩
      · rw [hbytes, add_zero]
        exact hle
      · rw [carried.kind, hkind] at hdata
        cases hdata

/-- What a request can do to the log: it is answered again, or it adds one row. -/
inductive Stored (env : StreamServices) (log : EventLog) (jobId : Uuid)
    (request : JobStreamEventRequest) : EventLog → JobStreamEventResponse → Prop
  | replayed {existing : JobStreamEventRow} (found : existing ∈ collisions log jobId request)
      (same : validateStreamEventReplay env jobId request existing = .ok ()) :
      Stored env log jobId request log ⟨jobId, request.attempt, request.sequence, true⟩
  | added {row : JobStreamEventRow} {after : EventLog} (fresh : collisions log jobId request = [])
      (new : NewRow env log jobId request row) (inserted : log.insert row = .ok after) :
      Stored env log jobId request after ⟨jobId, request.attempt, request.sequence, false⟩

theorem storeStreamEvent_spec
    (h : storeStreamEvent env log jobId request payload limits order nonce =
      .ok (after, response)) : Stored env log jobId request after response := by
  unfold storeStreamEvent at h
  cases hhead : ((collisions log jobId request).rotate order).head? with
  | some existing =>
      simp only [hhead, bind_eq_ok] at h
      obtain ⟨_, hsame, hafter⟩ := h
      cases hafter
      exact .replayed (List.mem_rotate.mp (List.mem_of_head? hhead)) hsame
  | none =>
      simp only [hhead, bind_eq_ok] at h
      obtain ⟨row, hrow, inserted, hinsert, hafter⟩ := h
      cases hafter
      have hempty : collisions log jobId request = [] :=
        List.rotate_eq_nil_iff.mp (List.head?_eq_none_iff.mp hhead)
      exact .added hempty (newStreamEvent_spec hrow) hinsert

theorem appendJobStreamEvent_spec {db : Db} {principal : Principal} {nowUtc : Int}
    (h : appendJobStreamEvent env db log principal jobId request nowUtc order nonce =
      .ok (after, response)) :
    (∃ lease, streamLease env db principal jobId request nowUtc = .ok lease) ∧
      Stored env log jobId request after response := by
  simp only [appendJobStreamEvent, bind_eq_ok] at h
  obtain ⟨_, -, _, -, ⟨payload, limits⟩, hlease, hstore⟩ := h
  exact ⟨⟨_, hlease⟩, storeStreamEvent_spec hstore⟩

/-- A request keeps every attempt sound. -/
theorem Stored.sound (stored : Stored env log jobId request after response)
    (h : ∀ jobId attempt, SoundLog (log.ofAttempt jobId attempt)) (other : Uuid)
    (attempt : Int) : SoundLog (after.ofAttempt other attempt) := by
  cases stored with
  | replayed found same => exact h other attempt
  | @added row _ fresh new inserted =>
      rw [EventLog.ofAttempt_insert inserted]
      split
      · rename_i hsame
        obtain ⟨hjob, hattempt⟩ := hsame
        rw [new.carried.jobId] at hjob
        rw [new.carried.attempt] at hattempt
        subst hjob hattempt
        exact (h _ _).append new.follows
      · rw [List.append_nil]
        exact h other attempt

/-- Only the attempt of the request gets longer. -/
theorem Stored.other (stored : Stored env log jobId request after response) {other : Uuid}
    {attempt : Int} (hne : other ≠ jobId ∨ attempt ≠ request.attempt ∨
      upstreamDone (log.ofAttempt other attempt) = true) :
    after.ofAttempt other attempt = log.ofAttempt other attempt := by
  cases stored with
  | replayed found same => rfl
  | @added row _ fresh new inserted =>
      rw [EventLog.ofAttempt_insert inserted, if_neg, List.append_nil]
      rw [new.carried.jobId, new.carried.attempt]
      rintro ⟨rfl, rfl⟩
      rcases hne with hne | hne | hdone
      · exact hne rfl
      · exact hne rfl
      · rw [upstreamDone_eq_false.mpr new.follows.unfinished] at hdone
        cases hdone

end Append

/-- The text of a stored event. -/
def JobStreamEventRow.body (env : StreamServices) (row : JobStreamEventRow) : Option String :=
  row.eventCiphertext.bind
    (env.decryptStreamEvent row.jobId row.attemptNumber row.sequenceNumber)

/-- The stored event is the one that the request is about, in all its parts. -/
structure SameEvent (env : StreamServices) (jobId : Uuid) (request : JobStreamEventRequest)
    (row : JobStreamEventRow) : Prop where
  carried : RowOf jobId request row
  body : row.body env = request.eventData

/-- Every data event can be read, and its length is the recorded one. -/
def EventLog.Readable (env : StreamServices) (log : EventLog) : Prop :=
  ∀ row ∈ log.rows, row.eventKind = .data →
    ∃ text, row.body env = some text ∧ row.plaintextBytes = text.utf8ByteSize

section Replay
variable {env : StreamServices} {log after : EventLog} {jobId : Uuid}
  {request : JobStreamEventRequest} {payload : StandardJobPayload} {limits : StandardJobLimits}
  {order nonce : Nat} {response : JobStreamEventResponse} {row : JobStreamEventRow}

theorem Stored.readable (stored : Stored env log jobId request after response)
    (roundTrips : env.RoundTrips) (h : log.Readable env) : after.Readable env := by
  cases stored with
  | replayed found same => exact h
  | @added row _ fresh new inserted =>
      intro other hother hdata
      rw [(EventLog.insert_eq_ok inserted).2] at hother
      rcases List.mem_append.mp hother with hold | hnew
      · exact h other hold hdata
      · obtain rfl := List.mem_singleton.mp hnew
        obtain ⟨data, stored, nonce, -, hstored, hlength, hencrypt⟩ := new.body hdata
        refine ⟨data, ?_, hlength⟩
        rw [JobStreamEventRow.body, hstored, Option.bind_some, new.carried.jobId,
          new.carried.attempt, new.carried.sequence]
        exact roundTrips _ _ _ _ _ _ hencrypt

/-- A valid request carries a body exactly for data. -/
theorem validate_body (h : request.validate env.parseJson = .ok ()) :
    request.eventData.isSome ↔ request.kind = .data := by
  simp only [JobStreamEventRequest.validate, bind_eq_ok] at h
  obtain ⟨_, -, _, -, _, -, h⟩ := h
  cases hkind : request.kind <;> cases hdata : request.eventData <;>
    simp_all [validateEventData]

/-- The body of a collision is compared with the text that its row holds. -/
theorem replaySameBody_eq_ok (hrow : row ∈ log.rows) (readable : log.Readable env)
    (carried : RowOf jobId request row) (hbody : request.eventData.isSome ↔ request.kind = .data) :
    replaySameBody env jobId request row = .ok () ↔ row.body env = request.eventData := by
  obtain ⟨-, -, -, -, hkinds⟩ := log.checked row hrow
  cases hkind : request.kind with
  | data =>
      have hdata : row.eventKind = .data := carried.kind.trans hkind
      obtain ⟨text, htext, hlength⟩ := readable row hrow hdata
      obtain ⟨supplied, hsupplied⟩ := Option.isSome_iff_exists.mp (hbody.mpr hkind)
      obtain ⟨-, -, hversion, -⟩ | ⟨hdone, -⟩ := hkinds
      · rw [JobStreamEventRow.body, carried.jobId, carried.attempt, carried.sequence,
          Option.bind_eq_some_iff] at htext
        obtain ⟨ciphertext, hciphertext, hdecrypt⟩ := htext
        rw [JobStreamEventRow.body, carried.jobId, carried.attempt, carried.sequence, hciphertext,
          Option.bind_some, hdecrypt, hsupplied, Option.some.injEq]
        simp only [replaySameBody, hkind, hversion, hciphertext, hdecrypt, hsupplied, hlength,
          bind_eq_ok, okOr_eq_ok, rejectIf_eq_ok, exists_const, storageVersion, not_or, not_not,
          ne_eq, Option.some.injEq, exists_eq_left', true_and]
        constructor
        · rintro ⟨rfl, -⟩
          rfl
        · rintro rfl
          exact ⟨rfl, rfl⟩
      · rw [hdata] at hdone
        cases hdone
  | upstreamDone =>
      have hdone : row.eventKind = .upstreamDone := carried.kind.trans hkind
      obtain ⟨hdata, -⟩ | ⟨-, hciphertext, hversion, hbytes⟩ := hkinds
      · rw [hdone] at hdata
        cases hdata
      · have hnone : request.eventData = none := by
          rw [← Option.not_isSome_iff_eq_none, hbody, hkind]
          exact fun h => by cases h
        rw [JobStreamEventRow.body, hciphertext, hnone]
        simp [replaySameBody, hkind, hciphertext, hversion, hbytes]

theorem validateStreamEventReplay_eq_ok (hrow : row ∈ log.rows) (readable : log.Readable env)
    (hjob : row.jobId = jobId) (hbody : request.eventData.isSome ↔ request.kind = .data) :
    validateStreamEventReplay env jobId request row = .ok () ↔
      SameEvent env jobId request row := by
  simp only [validateStreamEventReplay, bind_eq_ok, rejectIf_eq_ok, exists_const, not_or, not_not]
  constructor
  · rintro ⟨⟨hattempt, hsequence, hkey, hkind⟩, hsame⟩
    have carried : RowOf jobId request row := ⟨hjob, hattempt, hsequence, hkey, hkind⟩
    exact ⟨carried, (replaySameBody_eq_ok hrow readable carried hbody).mp hsame⟩
  · rintro ⟨carried, hsame⟩
    exact ⟨⟨carried.attempt, carried.sequence, carried.key, carried.kind⟩,
      (replaySameBody_eq_ok hrow readable carried hbody).mpr hsame⟩

theorem mem_collisions : row ∈ collisions log jobId request ↔ row ∈ log.rows ∧ row.jobId = jobId ∧
    ((row.attemptNumber = request.attempt ∧ row.sequenceNumber = request.sequence) ∨
      row.idempotencyKey = request.idempotencyKey) := by
  rw [collisions, List.mem_filter, decide_eq_true_eq]

/-- A row that agrees with the request is the only one that it collides with. -/
theorem collision_unique (hrow : row ∈ log.rows) (carried : RowOf jobId request row)
    {other : JobStreamEventRow} (hother : other ∈ collisions log jobId request) : other = row := by
  obtain ⟨hmem, hjob, ⟨hattempt, hsequence⟩ | hkey⟩ := mem_collisions.mp hother
  · refine List.inj_on_of_nodup_map log.positions hmem hrow ?_
    rw [JobStreamEventRow.position, JobStreamEventRow.position, hjob, hattempt, hsequence,
      carried.jobId, carried.attempt, carried.sequence]
  · refine List.inj_on_of_nodup_map log.requestKeys hmem hrow ?_
    rw [JobStreamEventRow.requestKey, JobStreamEventRow.requestKey, hjob, hkey, carried.jobId,
      carried.key]

/-- A request that collides is answered exactly when it is the stored event again. -/
theorem storeStreamEvent_collision (readable : log.Readable env)
    (hbody : request.eventData.isSome ↔ request.kind = .data)
    (hcollides : collisions log jobId request ≠ []) :
    (∃ outcome, storeStreamEvent env log jobId request payload limits order nonce = .ok outcome) ↔
      ∃ row ∈ log.rows, SameEvent env jobId request row := by
  constructor
  · rintro ⟨⟨after, response⟩, hstore⟩
    cases storeStreamEvent_spec hstore with
    | @replayed existing found same =>
        obtain ⟨hmem, hjob, -⟩ := mem_collisions.mp found
        exact ⟨existing, hmem, (validateStreamEventReplay_eq_ok hmem readable hjob hbody).mp same⟩
    | added fresh new inserted => exact absurd fresh hcollides
  · rintro ⟨row, hmem, same⟩
    have hhead : ((collisions log jobId request).rotate order).head? = some row := by
      cases hhead : ((collisions log jobId request).rotate order).head? with
      | none => exact absurd (List.rotate_eq_nil_iff.mp (List.head?_eq_none_iff.mp hhead)) hcollides
      | some other =>
          have hother := List.mem_rotate.mp (List.mem_of_head? hhead)
          rw [collision_unique hmem same.carried hother]
    have hvalid := (validateStreamEventReplay_eq_ok hmem readable same.carried.jobId hbody).mpr same
    refine ⟨(log, ⟨jobId, request.attempt, request.sequence, true⟩), ?_⟩
    rw [storeStreamEvent, hhead]
    simp only [hvalid]
    rfl

end Replay

end MindOne.Stream

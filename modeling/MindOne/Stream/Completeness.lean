import MindOne.Stream.Consumers

/-!
# What a consumer gets

At any time a consumer has sent a first part of the data events that are
stored. When it ends with its end mark, the job has succeeded and nothing is
missing: the status is read before the page, and after a success the log no
longer changes.
-/

namespace MindOne.Stream

open CheckedArithmetic Coordinator KeyedTable

section Growth
variable {env : StreamServices} {server : StreamDb} {jobId : Uuid}

/-- Stored events are only ever added. -/
theorem Stored.storedEvents_prefix {log after : EventLog} {other : Uuid}
    {request : JobStreamEventRequest} {response : JobStreamEventResponse}
    (stored : Stored env log other request after response) (jobId : Uuid) (attempt : Int) :
    storedEvents env log jobId attempt <+: storedEvents env after jobId attempt := by
  cases stored with
  | replayed found same => exact List.prefix_rfl
  | added fresh new inserted =>
      rw [storedEvents, storedEvents, EventLog.ofAttempt_insert inserted, List.filter_append,
        List.map_append]
      exact List.prefix_append _ _

theorem performStream_storedEvents (action : StreamAction) (jobId : Uuid) (attempt : Int) :
    storedEvents env server.log jobId attempt <+:
      storedEvents env (performStream env action server).log jobId attempt := by
  cases action with
  | coordinator action => exact List.prefix_rfl
  | append principal other request nowUtc order nonce =>
      rcases performStream_append env server principal other request nowUtc order nonce
        with hsame | ⟨after, response, lease, hafter, -, stored⟩
      · rw [hsame]
      · rw [hafter]
        exact stored.storedEvents_prefix jobId attempt

/-- The job has succeeded, with its only attempt. -/
def Succeeded (db : Db) (jobId : Uuid) : Prop :=
  ∃ job, db.jobs.find jobId = some job ∧ job.status = .succeeded ∧ job.attemptCount = 1

/-- A success stays, and it ends the log. -/
theorem Succeeded.performStream (h : Succeeded server.db jobId) (action : StreamAction) :
    Succeeded (performStream env action server).db jobId ∧
      storedEvents env (performStream env action server).log jobId 1 =
        storedEvents env server.log jobId 1 := by
  obtain ⟨job, hjob, succeeded, hcount⟩ := h
  obtain rfl := Table.key_of_find hjob
  have hended : ¬ job.status.Live := by
    rw [succeeded]
    rintro (h | h | h) <;> cases h
  have hkept : KeepsEnded server.db (performStream env action server).db :=
    performStream_keeps Transition.keepsEnded action (fun _ h _ => h)
  have hnot : job.status ≠ .leased := fun leased => hended (.inr (.inr leased))
  refine ⟨⟨job, hkept job hjob hended, succeeded, hcount⟩, ?_⟩
  rw [storedEvents, storedEvents, performStream_log action job.id 1 (.inr ⟨job, hjob, hnot⟩)]

end Growth

section Heads
variable {env : StreamServices} {server : StreamDb} {principal : Principal} {jobId : Uuid}
  {head : ReadHead}

/-- What a read knows about the attempt it reads. -/
structure GoodHead (db : Db) (jobId : Uuid) (head : ReadHead) : Prop where
  attempt : 0 < head.attempt → head.attempt = 1
  succeeded : head.status = .succeeded → Succeeded db jobId ∧ head.attempt = 1

theorem readHead_good (wellFormed : server.db.Lives Life.WellFormed)
    (h : readHead env server.db principal jobId = .ok head) : GoodHead server.db jobId head := by
  unfold readHead at h
  cases hjob : (server.db.jobs.find jobId).filter fun job =>
      (server.db.workers.models.find job.modelId).isSome with
  | none => simp [hjob] at h
  | some job =>
      simp only [hjob, bind_eq_ok, rejectIf_eq_ok, exists_const, not_or, not_not] at h
      obtain ⟨-, -, payload, -, limits, -, ⟨-, hmax⟩, hhead⟩ := h
      cases hhead
      have hfound := (Option.filter_eq_some_iff.mp hjob).1
      have life := wellFormed.lives job (Table.mem_of_find hfound)
      obtain ⟨hlow, hhigh⟩ := life.attemptCount
      have hle : job.attemptCount ≤ 1 := hmax ▸ hhigh
      refine ⟨fun hpos => le_antisymm hle hpos, fun succeeded => ?_⟩
      obtain ⟨attempt, hcurrent, -⟩ := life.succeeded.mp succeeded
      have hone := ((life.numbered job.attemptCount).mp (Option.isSome_of_mem hcurrent)).1
      exact ⟨⟨job, hfound, succeeded, le_antisymm hle hone⟩, le_antisymm hle hone⟩

theorem GoodHead.performStream (h : GoodHead server.db jobId head) (action : StreamAction) :
    GoodHead (performStream env action server).db jobId head :=
  ⟨h.attempt, fun succeeded =>
    ⟨((h.succeeded succeeded).1.performStream action).1, (h.succeeded succeeded).2⟩⟩

end Heads

/-- The consumer has nothing to send: it is in the middle of a read. -/
structure Waiting (state : StreamState) : Prop where
  pending : state.pending = []
  terminal : state.terminal = none

/-- The state of a read that is under way, at the cursor of its consumer. -/
def PhaseSound (server : StreamDb) (stored : List (Option JobStreamEvent))
    (state : StreamState) (n : Nat) : TurnPhase → Prop
  | .idle | .cancelling => True
  | .asking _ => Waiting state
  | .headed _ head => Waiting state ∧ GoodHead server.db state.jobId head
  | .paged _ head events cursor => Waiting state ∧ GoodHead server.db state.jobId head ∧
      events.map some <+: stored.drop n ∧ cursor = n + events.length

/-- What the consumer has sent and is about to send are the stored events up to its cursor. -/
structure ConsumerSound (env : StreamServices) (server : StreamDb) (consumer : Consumer)
    (n : Nat) : Prop where
  cursor : consumer.state.nextSequence = n
  bound : n ≤ (storedEvents env server.log consumer.state.jobId 1).length
  events : (sentEvents consumer.sent ++ consumer.state.pending).map some =
    (storedEvents env server.log consumer.state.jobId 1).take n
  phase : PhaseSound server (storedEvents env server.log consumer.state.jobId 1) consumer.state n
    consumer.phase
  done : consumer.state.terminal = some .done ∨ .terminal .done ∈ consumer.sent →
    Succeeded server.db consumer.state.jobId ∧
      n = (storedEvents env server.log consumer.state.jobId 1).length
  drained : .terminal .done ∈ consumer.sent →
    consumer.state.finished = true ∧ consumer.phase = .idle ∧ consumer.state.pending = []

section Steps
variable {env : StreamServices} {server : StreamDb} {consumer : Consumer} {n : Nat}

theorem sound_start (emitter : Emitter) (principal : Principal) (jobId : Uuid)
    (now budget : Nat) :
    ConsumerSound env server (.start emitter principal jobId now budget) 0 where
  cursor := rfl
  bound := Nat.zero_le _
  events := rfl
  phase := trivial
  done := by
    rintro (h | h)
    · cases h
    · exact (List.not_mem_nil h).elim
  drained := fun h => (List.not_mem_nil h).elim

/-- Whatever the server does, the events sent so far stay the first ones. -/
theorem ConsumerSound.performStream (h : ConsumerSound env server consumer n) (action : StreamAction) :
    ConsumerSound env (performStream env action server) consumer n := by
  have hgrows : storedEvents env server.log consumer.state.jobId 1 <+:
      storedEvents env (Stream.performStream env action server).log consumer.state.jobId 1 :=
    performStream_storedEvents action consumer.state.jobId 1
  refine ⟨h.cursor, h.bound.trans hgrows.length_le, ?_, ?_, ?_, h.drained⟩
  · obtain ⟨more, hmore⟩ := hgrows
    rw [h.events, ← hmore, List.take_append_of_le_length h.bound]
  · have hphase := h.phase
    cases hc : consumer.phase with
    | idle => trivial
    | cancelling => trivial
    | asking now =>
        rw [hc] at hphase
        exact hphase
    | headed now head =>
        rw [hc] at hphase
        exact ⟨hphase.1, hphase.2.performStream action⟩
    | paged now head events cursor =>
        rw [hc] at hphase
        obtain ⟨waiting, good, hsofar, hcursor⟩ := hphase
        exact ⟨waiting, good.performStream action, hsofar.trans (hgrows.drop n), hcursor⟩
  · intro hdone
    obtain ⟨succeeded, hlength⟩ := h.done hdone
    have hafter : Succeeded (Stream.performStream env action server).db consumer.state.jobId ∧
        storedEvents env (Stream.performStream env action server).log consumer.state.jobId 1 =
          storedEvents env server.log consumer.state.jobId 1 := succeeded.performStream action
    exact ⟨hafter.1, hlength.trans (congrArg List.length hafter.2.symm)⟩

/-- The end of a turn sends nothing that counts. -/
theorem afterRead_spec (state : StreamState) (now : Nat) :
    ((state.afterRead now).1 = none ∨ (state.afterRead now).1 = some .keepAlive) ∧
      (state.afterRead now).2.jobId = state.jobId ∧
      (state.afterRead now).2.nextSequence = state.nextSequence ∧
      (state.afterRead now).2.pending = state.pending ∧
      (state.afterRead now).2.terminal = state.terminal := by
  unfold StreamState.afterRead StreamState.keepAlive
  split
  · exact ⟨.inl rfl, rfl, rfl, rfl, rfl⟩
  · split
    · exact ⟨.inr rfl, rfl, rfl, rfl, rfl⟩
    · exact ⟨.inl rfl, rfl, rfl, rfl, rfl⟩

/-- A read ends: the cursor may have moved, with the events in between pending. -/
theorem ConsumerSound.finish (h : ConsumerSound env server consumer n)
    (busy : consumer.phase ≠ .idle) {next : StreamState} {m now : Nat}
    (hjob : next.jobId = consumer.state.jobId) (hcursor : next.nextSequence = m)
    (hbound : m ≤ (storedEvents env server.log consumer.state.jobId 1).length)
    (hevents : (sentEvents consumer.sent ++ next.pending).map some =
      (storedEvents env server.log consumer.state.jobId 1).take m)
    (hdone : next.terminal = some .done → Succeeded server.db consumer.state.jobId ∧
      m = (storedEvents env server.log consumer.state.jobId 1).length) :
    ConsumerSound env server (consumer.finish (next.afterRead now)) m := by
  obtain ⟨hchunk, hjob', hcursor', hpending', hterminal'⟩ := afterRead_spec next now
  have hopen : .terminal .done ∉ consumer.sent := fun hmem => busy (h.drained hmem).2.1
  have hsent : sentEvents (next.afterRead now).1.toList = [] ∧
      .terminal .done ∉ (next.afterRead now).1.toList := by
    rcases hchunk with hnone | hsome
    · rw [hnone]
      exact ⟨rfl, List.not_mem_nil⟩
    · rw [hsome]
      exact ⟨rfl, by simp⟩
  have hnot : .terminal .done ∉ consumer.sent ++ (next.afterRead now).1.toList := by
    rw [List.mem_append]
    rintro (hold | hnew)
    · exact hopen hold
    · exact hsent.2 hnew
  have hid : (consumer.finish (next.afterRead now)).state.jobId = consumer.state.jobId :=
    hjob'.trans hjob
  refine ⟨hcursor'.trans hcursor, ?_, ?_, trivial, ?_, fun hmem => absurd hmem hnot⟩
  · rw [hid]
    exact hbound
  · rw [hid]
    simp only [Consumer.finish, sentEvents_append, hsent.1, List.append_nil, hpending']
    exact hevents
  · rw [hid]
    rintro (hterminal | hmem)
    · exact hdone (hterminal'.symm.trans hterminal)
    · exact absurd hmem hnot

/-- A failure of the coordinator is remembered, or it ends the stream. -/
theorem proxyFail_spec (state : StreamState) (now : Nat) (error : String) :
    (state.proxyFail now error).jobId = state.jobId ∧
      (state.proxyFail now error).nextSequence = state.nextSequence ∧
      (state.proxyFail now error).pending = state.pending ∧
      ((state.proxyFail now error).terminal = state.terminal ∨
        (state.proxyFail now error).terminal = some (recoveryTimeout error)) := by
  simp only [StreamState.proxyFail]
  split
  · exact ⟨rfl, rfl, rfl, .inr rfl⟩
  · exact ⟨rfl, rfl, rfl, .inl rfl⟩

/-- A read that fails moves nothing. -/
theorem ConsumerSound.fail (h : ConsumerSound env server consumer n)
    (busy : consumer.phase ≠ .idle) (waiting : Waiting consumer.state) (now : Nat)
    (error : ApiError) : ConsumerSound env server (consumer.fail now error) n := by
  unfold Consumer.fail
  split
  · obtain ⟨hjob, hcursor, hpending, hterminal⟩ :=
      proxyFail_spec consumer.state now error.message
    refine h.finish busy hjob (hcursor.trans h.cursor) h.bound ?_ fun hdone => ?_
    · have hsame : (consumer.state.proxyRead now (.failed error.message)).pending =
          consumer.state.pending := hpending
      rw [hsame]
      exact h.events
    · have hcases : some Terminal.done = consumer.state.terminal ∨
          some Terminal.done = some (recoveryTimeout error.message) :=
        hterminal.imp hdone.symm.trans hdone.symm.trans
      rcases hcases with hnone | herror
      · rw [waiting.terminal] at hnone
        cases hnone
      · cases herror
  · refine h.finish busy rfl h.cursor h.bound h.events fun hdone => ?_
    cases hdone

/-- When a consumer is done, the job has succeeded and there is no more. -/
theorem terminal_done {response : JobStreamReadResponse} (jobId : Uuid)
    (h : proxyTerminal jobId response = some .done ∨ gatewayTerminal response = some .done) :
    response.status = .succeeded ∧ response.hasMore = false := by
  rcases h with h | h
  · unfold proxyTerminal at h
    split at h
    · rename_i hstatus
      split at h
      · cases h
      · rename_i hmore
        exact ⟨hstatus, Bool.eq_false_iff.mpr hmore⟩
    · cases h
    · cases h
    · cases h
    · cases h
    · cases h
  · unfold gatewayTerminal at h
    split at h
    · rename_i hstatus
      split at h
      · rename_i hmore
        exact ⟨hstatus, Bool.eq_false_iff.mpr hmore.1⟩
      · cases h
    · cases h
    · cases h
    · cases h
    · cases h
    · cases h

theorem readRest_spec {log : EventLog} {jobId : Uuid} {head : ReadHead}
    {events : List JobStreamEvent} {cursor : Int} {response : JobStreamReadResponse}
    (h : readRest log jobId head events cursor = .ok response) :
    response.nextSequence = cursor ∧ response.events = events ∧ response.status = head.status ∧
      (response.hasMore = false → 0 < head.attempt → ¬ ∃ row ∈ log.ofAttempt jobId head.attempt,
        row.eventKind = .data ∧ cursor ≤ row.sequenceNumber) := by
  simp only [readRest, bind_eq_ok, rejectIf_eq_ok, exists_const] at h
  obtain ⟨-, hresponse⟩ := h
  cases hresponse
  refine ⟨rfl, rfl, rfl, fun hmore started hex => ?_⟩
  exact of_decide_eq_false hmore ⟨started, hex⟩

/-- A page is taken in: the cursor moves behind it. -/
theorem ConsumerSound.take (h : ConsumerSound env server consumer n)
    (sound : ∀ attempt, SoundLog (server.log.ofAttempt consumer.state.jobId attempt))
    {now : Nat} {head : ReadHead} {events : List JobStreamEvent} {cursor : Int}
    {response : JobStreamReadResponse} (hphase : consumer.phase = .paged now head events cursor)
    (hrest : readRest server.log consumer.state.jobId head events cursor = .ok response) :
    ∃ m, ConsumerSound env server (consumer.take now response) m := by
  have hsound := h.phase
  rw [hphase] at hsound
  obtain ⟨waiting, good, hsofar, hcursor⟩ := hsound
  obtain ⟨hnext, hevents, hstatus, hmore⟩ := readRest_spec hrest
  have busy : consumer.phase ≠ .idle := by simp [hphase]
  have hlength := hsofar.length_le
  rw [List.length_map, List.length_drop] at hlength
  have hbound : n + events.length ≤
      (storedEvents env server.log consumer.state.jobId 1).length := by
    have := h.bound
    omega
  have hbefore := h.events
  rw [waiting.pending, List.append_nil] at hbefore
  have htaken : (sentEvents consumer.sent ++ (consumer.state.pending ++ response.events)).map some =
      (storedEvents env server.log consumer.state.jobId 1).take (n + events.length) := by
    rw [waiting.pending, List.nil_append, hevents, List.map_append, hbefore, List.take_add,
      List.prefix_iff_eq_take.mp hsofar, List.length_map]
  have hmoved : response.nextSequence = ((n + events.length : Nat) : Int) := by
    rw [hnext, hcursor]
    exact (Int.natCast_add n events.length).symm
  have hfinal (hstatus' : response.status = .succeeded) (hmore' : response.hasMore = false) :
      Succeeded server.db consumer.state.jobId ∧
        n + events.length = (storedEvents env server.log consumer.state.jobId 1).length := by
    obtain ⟨succeeded, hattempt⟩ := good.succeeded (hstatus.symm.trans hstatus')
    have hnone := hmore hmore' (by omega)
    rw [hattempt, ← hnext, hmoved] at hnone
    exact ⟨succeeded, le_antisymm hbound ((no_more_iff (sound 1) _).mp hnone)⟩
  refine ⟨n + events.length, ?_⟩
  unfold Consumer.take
  split
  · refine h.finish busy rfl hmoved hbound htaken fun hdone => ?_
    obtain ⟨hstatus', hmore'⟩ := terminal_done consumer.state.jobId (.inl hdone)
    exact hfinal hstatus' hmore'
  · refine h.finish busy rfl hmoved hbound htaken fun hdone => ?_
    obtain ⟨hstatus', hmore'⟩ := terminal_done consumer.state.jobId (.inr hdone)
    exact hfinal hstatus' hmore'

/-- A consumer that goes on to another point of its turn has sent nothing new. -/
theorem ConsumerSound.withPhase (h : ConsumerSound env server consumer n) {phase : TurnPhase}
    (hopen : .terminal .done ∉ consumer.sent)
    (hphase : PhaseSound server (storedEvents env server.log consumer.state.jobId 1)
      consumer.state n phase) :
    ConsumerSound env server { consumer with phase } n :=
  ⟨h.cursor, h.bound, h.events, hphase, h.done, fun hmem => absurd hmem hopen⟩

theorem ConsumerSound.open (h : ConsumerSound env server consumer n)
    (busy : consumer.phase ≠ .idle) : .terminal .done ∉ consumer.sent :=
  fun hmem => busy (h.drained hmem).2.1

theorem ConsumerSound.read (h : ConsumerSound env server consumer n)
    (wellFormed : server.db.Lives Life.WellFormed)
    (sound : ∀ attempt, SoundLog (server.log.ofAttempt consumer.state.jobId attempt)) :
    ∃ m, ConsumerSound env server (consumer.read env server) m := by
  unfold Consumer.read
  have hsound := h.phase
  cases hphase : consumer.phase with
  | idle => exact ⟨n, h⟩
  | cancelling => exact ⟨n, h⟩
  | asking now =>
      have busy : consumer.phase ≠ .idle := by simp [hphase]
      rw [hphase] at hsound
      dsimp only
      split
      · rename_i head hhead
        obtain ⟨_, -, hread⟩ := bind_eq_ok.mp hhead
        exact ⟨n, h.withPhase (h.open busy) ⟨hsound, readHead_good wellFormed hread⟩⟩
      · exact ⟨n, h.fail busy hsound now _⟩
  | headed now head =>
      have busy : consumer.phase ≠ .idle := by simp [hphase]
      rw [hphase] at hsound
      obtain ⟨waiting, good⟩ := hsound
      dsimp only
      split
      · rename_i events cursor hpage
        refine ⟨n, h.withPhase (h.open busy) ⟨waiting, good, ?_⟩⟩
        rw [h.cursor] at hpage
        by_cases started : 0 < head.attempt
        · obtain ⟨hevents, hnext⟩ := readPage_spec (sound head.attempt) started hpage
          rw [good.attempt started] at hevents
          exact ⟨hevents ▸ List.take_prefix _ _, hnext⟩
        · rw [readPage_unstarted started] at hpage
          cases hpage
          exact ⟨List.nil_prefix, (add_zero _).symm⟩
      · exact ⟨n, h.fail busy waiting now _⟩
  | paged now head events cursor =>
      dsimp only
      split
      · rename_i response hrest
        exact h.take sound hphase hrest
      · have busy : consumer.phase ≠ .idle := by simp [hphase]
        rw [hphase] at hsound
        exact ⟨n, h.fail busy hsound.1 now _⟩

/-- A read that is under way is at one of three points, and nothing is pending there. -/
theorem ConsumerSound.waiting (h : ConsumerSound env server consumer n) {now : Nat}
    (hreading : consumer.readingSince = some now) :
    consumer.phase ≠ .idle ∧ Waiting consumer.state := by
  have hsound := h.phase
  unfold Consumer.readingSince at hreading
  cases hphase : consumer.phase with
  | idle => simp [hphase] at hreading
  | cancelling => simp [hphase] at hreading
  | asking now' =>
      rw [hphase] at hsound
      exact ⟨by simp, hsound⟩
  | headed now' head =>
      rw [hphase] at hsound
      exact ⟨by simp, hsound.1⟩
  | paged now' head events cursor =>
      rw [hphase] at hsound
      exact ⟨by simp, hsound.1⟩

theorem ConsumerSound.lose (h : ConsumerSound env server consumer n) (error : ApiError) :
    ConsumerSound env server (consumer.lose error) n := by
  unfold Consumer.lose
  split
  · rename_i now hreading
    obtain ⟨busy, waiting⟩ := h.waiting hreading
    exact h.fail busy waiting now error
  · exact h

theorem ConsumerSound.garble (h : ConsumerSound env server consumer n) (error : String) :
    ConsumerSound env server (consumer.garble error) n := by
  unfold Consumer.garble
  split
  · rename_i now hreading
    obtain ⟨busy, -⟩ := h.waiting hreading
    refine h.finish busy rfl h.cursor h.bound h.events fun hdone => ?_
    cases hdone
  · exact h

/-- What is sent first is what was pending first; the terminal comes last. -/
theorem ConsumerSound.frame (h : ConsumerSound env server consumer n)
    (hopen : consumer.state.finished = false) {now : Nat} {chunk : Chunk} {after : StreamState}
    (hframe : consumer.state.frame now = some (chunk, after)) :
    ConsumerSound env server (consumer.finish (some chunk, after)) n := by
  have hunsent : .terminal .done ∉ consumer.sent := by
    intro hmem
    rw [(h.drained hmem).1] at hopen
    cases hopen
  unfold StreamState.frame at hframe
  split at hframe
  · rename_i event pending hpending
    cases hframe
    have hnot : .terminal .done ∉ consumer.sent ++ [.event event] := by
      simpa using hunsent
    refine ⟨h.cursor, h.bound, ?_, trivial, ?_, fun hmem => absurd hmem hnot⟩
    · have hevents := h.events
      rw [hpending] at hevents
      simp only [Consumer.finish, Option.toList_some, sentEvents_append]
      rw [← hevents, List.append_assoc]
      rfl
    · rintro (hterminal | hmem)
      · exact h.done (.inl hterminal)
      · exact absurd hmem hnot
  · rename_i hpending
    split at hframe
    · rename_i terminal hterminal
      cases hframe
      refine ⟨h.cursor, h.bound, ?_, trivial, ?_, fun _ => ⟨rfl, rfl, hpending⟩⟩
      · have hevents := h.events
        simp only [Consumer.finish, Option.toList_some, sentEvents_append]
        rw [← hevents, sentEvents, sentEvents, List.append_nil]
      · rintro (hnone | hmem)
        · cases hnone
        · rcases List.mem_append.mp hmem with hold | hnew
          · exact absurd hold hunsent
          · obtain rfl := Chunk.terminal.inj (List.mem_singleton.mp hnew)
            exact h.done (.inl hterminal)
    · cases hframe

theorem ConsumerSound.wake (h : ConsumerSound env server consumer n) (now : Nat) :
    ConsumerSound env server (consumer.wake now) n := by
  unfold Consumer.wake
  split
  · rename_i hidle
    split
    · exact h
    · rename_i hopen
      rw [Bool.not_eq_true] at hopen
      have hunsent : .terminal .done ∉ consumer.sent := by
        intro hmem
        rw [(h.drained hmem).1] at hopen
        cases hopen
      split
      · rename_i chunk after hframe
        exact h.frame hopen hframe
      · rename_i hframe
        split
        · split
          · refine ⟨h.cursor, h.bound, h.events, ?_, ?_, fun hmem => absurd hmem hunsent⟩
            · show PhaseSound _ _ _ _ consumer.phase
              rw [hidle]
              trivial
            · rintro (hterminal | hmem)
              · cases hterminal
              · exact absurd hmem hunsent
          · exact h.withPhase hunsent trivial
        · refine h.withPhase hunsent ?_
          unfold StreamState.frame at hframe
          split at hframe
          · cases hframe
          · rename_i hpending
            split at hframe
            · cases hframe
            · rename_i hterminal
              exact ⟨hpending, hterminal⟩
  · exact h

end Steps

section Worlds
variable {env : StreamServices} {world : World}

/-- A world whose consumer is sound, with a server that a run has reached. -/
structure WorldSound (env : StreamServices) (world : World) : Prop where
  server : StreamReachable env world.server
  consumer : ∃ n, ConsumerSound env world.server world.consumer n

theorem WorldSound.step (h : WorldSound env world) (event : WorldEvent) :
    WorldSound env (stepWorld env event world) := by
  obtain ⟨n, hconsumer⟩ := h.consumer
  cases event with
  | server action => exact ⟨h.server.step action, n, hconsumer.performStream action⟩
  | wake now => exact ⟨h.server, n, hconsumer.wake now⟩
  | read => exact ⟨h.server, hconsumer.read h.server.wellFormed (h.server.sound _)⟩
  | lose error => exact ⟨h.server, n, hconsumer.lose error⟩
  | garble error => exact ⟨h.server, n, hconsumer.garble error⟩
  | cancel =>
      simp only [stepWorld, World.cancel]
      split
      · rename_i hphase
        have busy : world.consumer.phase ≠ .idle := by simp [hphase]
        have hafter := hconsumer.performStream (.coordinator (cancelAction world.consumer))
        refine ⟨h.server.step (.coordinator _), n, hafter.cursor, hafter.bound, hafter.events,
          trivial, ?_, fun hmem => absurd hmem (hafter.open busy)⟩
        rintro (hterminal | hmem)
        · unfold StreamState.stop gatewayTimeout at hterminal
          split at hterminal
          · cases hterminal
          · cases hterminal
        · exact absurd hmem (hafter.open busy)
      · exact h

theorem WorldReachable.sound (h : WorldReachable env world) : WorldSound env world := by
  induction h with
  | start emitter principal jobId now budget reachable =>
      exact ⟨reachable, 0, sound_start emitter principal jobId now budget⟩
  | step event _ ih => exact ih.step event

theorem finish_jobId (consumer : Consumer) (next : StreamState) (now : Nat) :
    (consumer.finish (next.afterRead now)).state.jobId = next.jobId :=
  (afterRead_spec next now).2.1

theorem fail_jobId (consumer : Consumer) (now : Nat) (error : ApiError) :
    (consumer.fail now error).state.jobId = consumer.state.jobId := by
  unfold Consumer.fail
  split
  · exact (finish_jobId _ _ _).trans (proxyFail_spec _ _ _).1
  · exact finish_jobId _ _ _

theorem read_jobId (consumer : Consumer) (server : StreamDb) :
    (consumer.read env server).state.jobId = consumer.state.jobId := by
  unfold Consumer.read
  split
  · split
    · rfl
    · exact fail_jobId _ _ _
  · split
    · rfl
    · exact fail_jobId _ _ _
  · split
    · unfold Consumer.take
      split
      · exact finish_jobId _ _ _
      · exact finish_jobId _ _ _
    · exact fail_jobId _ _ _
  · rfl
  · rfl

theorem wake_jobId (consumer : Consumer) (now : Nat) :
    (consumer.wake now).state.jobId = consumer.state.jobId := by
  unfold Consumer.wake
  split
  · split
    · rfl
    · split
      · rename_i chunk after hframe
        unfold StreamState.frame at hframe
        split at hframe
        · cases hframe
          rfl
        · split at hframe
          · cases hframe
            rfl
          · cases hframe
      · split
        · split
          · rfl
          · rfl
        · rfl
  · rfl

/-- A consumer stays with its job. -/
theorem stepWorld_jobId (event : WorldEvent) :
    (stepWorld env event world).consumer.state.jobId = world.consumer.state.jobId := by
  cases event with
  | server action => rfl
  | wake now => exact wake_jobId _ _
  | read => exact read_jobId _ _
  | lose error =>
      simp only [stepWorld, Consumer.lose]
      split
      · exact fail_jobId _ _ _
      · rfl
  | garble error =>
      simp only [stepWorld, Consumer.garble]
      split
      · exact finish_jobId _ _ _
      · rfl
  | cancel =>
      simp only [stepWorld, World.cancel]
      split
      · rfl
      · rfl

theorem stepWorld_storedEvents (event : WorldEvent) (jobId : Uuid) (attempt : Int) :
    storedEvents env world.server.log jobId attempt <+:
      storedEvents env (stepWorld env event world).server.log jobId attempt := by
  cases event with
  | server action => exact performStream_storedEvents action jobId attempt
  | wake now => exact List.prefix_rfl
  | read => exact List.prefix_rfl
  | lose error => exact List.prefix_rfl
  | garble error => exact List.prefix_rfl
  | cancel =>
      simp only [stepWorld, World.cancel]
      split
      · exact performStream_storedEvents (.coordinator (cancelAction world.consumer)) jobId attempt
      · exact List.prefix_rfl

/-- Later on there are at least as many events, for the same job. -/
theorem runWorld_grows (events : List WorldEvent) (h : WorldReachable env world) :
    WorldReachable env (runWorld env events world) ∧
      (runWorld env events world).consumer.state.jobId = world.consumer.state.jobId ∧
      ∀ jobId attempt, storedEvents env world.server.log jobId attempt <+:
        storedEvents env (runWorld env events world).server.log jobId attempt := by
  induction events generalizing world with
  | nil => exact ⟨h, rfl, fun _ _ => List.prefix_rfl⟩
  | cons event rest ih =>
      obtain ⟨hreachable, hjob, hgrows⟩ := ih (h.step event)
      exact ⟨hreachable, hjob.trans (stepWorld_jobId event), fun jobId attempt =>
        (stepWorld_storedEvents event jobId attempt).trans (hgrows jobId attempt)⟩

/-- Events that are stored are numbered by their positions. -/
theorem sequence_of_stored {log : EventLog} {jobId : Uuid} {attempt : Int}
    {events : List JobStreamEvent} (sound : SoundLog (log.ofAttempt jobId attempt))
    (h : events.map some = storedEvents env log jobId attempt) :
    events.map JobStreamEvent.sequence =
      (List.range events.length).map (Nat.cast : Nat → Int) := by
  refine List.ext_getElem (by simp) fun i hi _ => ?_
  rw [List.length_map] at hi
  have hevent := congrArg (·[i]?) h
  simp only [List.getElem?_map, List.getElem?_eq_getElem hi, Option.map_some, storedEvents] at hevent
  obtain ⟨row, hrow, hread⟩ := Option.map_eq_some_iff.mp hevent.symm
  obtain ⟨body, -, hbody⟩ := Option.map_eq_some_iff.mp hread
  rw [List.getElem_map, List.getElem_map, List.getElem_range, ← hbody]
  exact sound.data_sequence hrow

/-- In every run of a consumer among appends, completions and failing reads, what it has
sent at any time is a first part of the events that are stored later; and once it has
ended with its end mark, the job has succeeded, and what it has sent are the data events
of the succeeded attempt, each once and in the order of their numbers. -/
theorem stream_reader_complete (h : WorldReachable env world) (events : List WorldEvent) :
    (sentEvents world.consumer.sent).map some <+: storedEvents env
        (runWorld env events world).server.log world.consumer.state.jobId 1 ∧
      (.terminal .done ∈ (runWorld env events world).consumer.sent →
        ∃ job attempt,
          (runWorld env events world).server.db.jobs.find world.consumer.state.jobId = some job ∧
          job.status = .succeeded ∧
          (runWorld env events world).server.db.jobAttempts.find (job.id, job.attemptCount) =
            some attempt ∧ attempt.status = .succeeded ∧
          (sentEvents (runWorld env events world).consumer.sent).map some = storedEvents env
            (runWorld env events world).server.log world.consumer.state.jobId job.attemptCount ∧
          (sentEvents world.consumer.sent).map some <+: storedEvents env
            (runWorld env events world).server.log world.consumer.state.jobId job.attemptCount ∧
          (sentEvents (runWorld env events world).consumer.sent).map JobStreamEvent.sequence =
            (List.range (sentEvents (runWorld env events world).consumer.sent).length).map
              (Nat.cast : Nat → Int)) := by
  obtain ⟨hlater, hjobId, hgrows⟩ := runWorld_grows events h
  obtain ⟨n, hnow⟩ := h.sound.consumer
  have hsofar : (sentEvents world.consumer.sent).map some <+: storedEvents env
      (runWorld env events world).server.log world.consumer.state.jobId 1 := by
    have hsent : (sentEvents world.consumer.sent).map some <+:
        (sentEvents world.consumer.sent ++ world.consumer.state.pending).map some := by
      rw [List.map_append]
      exact List.prefix_append _ _
    rw [hnow.events] at hsent
    exact (hsent.trans (List.take_prefix _ _)).trans (hgrows _ 1)
  refine ⟨hsofar, fun hdone => ?_⟩
  have hserver := hlater.sound.server
  obtain ⟨m, hthen⟩ := hlater.sound.consumer
  obtain ⟨⟨job, hjob, succeeded, hcount⟩, hlength⟩ := hthen.done (.inr hdone)
  obtain ⟨-, -, hpending⟩ := hthen.drained hdone
  have hall := hthen.events
  rw [hpending, List.append_nil, hlength, List.take_length, hjobId] at hall
  rw [hjobId] at hjob
  obtain ⟨attempt, hcurrent, hattempt⟩ :=
    (hserver.wellFormed.lives job (Table.mem_of_find hjob)).succeeded.mp succeeded
  refine ⟨job, attempt, hjob, succeeded, hcurrent, hattempt, ?_, ?_, ?_⟩
  · rw [hcount]
    exact hall
  · rw [hcount]
    exact hsofar
  · exact sequence_of_stored (hserver.sound _ 1) hall

end Worlds

section Sample

/-- The stream of a proxy, from the moment on at which the job is leased. -/
def sampleWorld : World :=
  ⟨performStreams sampleStreamServices (sampleLease.map .coordinator) .initial,
    .start .proxy sampleConsumer sampleJobId 0 600000000000⟩

def sampleResult : Action :=
  .result sampleWorker sampleJobId ⟨.fromU128 20, "result-0", "cmVzdWx0", 1, 1, "telemetry"⟩ 0
    ⟨⟨.fromU128 51, sampleEpoch⟩, ⟨.fromU128 52, sampleEpoch⟩,
      ⟨.fromU128 53, sampleEpoch⟩, ⟨.fromU128 54, sampleEpoch⟩, .fromU128 50⟩

/-- The consumer loses its first read; the next one comes after the job has been settled. -/
def sampleReading : List WorldEvent :=
  [.server (sampleEvent 0 "stream-0" .data (some sampleData)), .wake 1, .lose .internal,
    .server (sampleEvent 1 "stream-1" .upstreamDone none),
    .server (.coordinator (.bootstrap sampleWorker.userId "github" 1000000
      ⟨.fromU128 55, sampleEpoch⟩)), .server (.coordinator sampleResult),
    .wake 2, .read, .read, .read, .wake 3, .wake 4]

theorem sampleWorld_reachable : WorldReachable sampleStreamServices sampleWorld :=
  .start .proxy sampleConsumer sampleJobId 0 600000000000
    (StreamReachable.initial.performStreams (sampleLease.map .coordinator))

theorem stream_reader_complete_sample :
    ∃ job, (runWorld sampleStreamServices sampleReading sampleWorld).server.db.jobs.find
        sampleJobId = some job ∧ job.status = .succeeded ∧
      sentEvents (runWorld sampleStreamServices sampleReading sampleWorld).consumer.sent =
        [⟨0, sampleData⟩] := by
  have hsent : (runWorld sampleStreamServices sampleReading sampleWorld).consumer.sent =
      [.event ⟨0, sampleData⟩, .terminal .done] := by decide +kernel
  obtain ⟨-, hdone⟩ := stream_reader_complete sampleWorld_reachable sampleReading
  obtain ⟨job, -, hjob, succeeded, -⟩ := hdone (by rw [hsent]; simp)
  exact ⟨job, hjob, succeeded, by rw [hsent]; rfl⟩

end Sample

end MindOne.Stream

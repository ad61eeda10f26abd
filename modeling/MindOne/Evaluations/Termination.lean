import MindOne.Evaluations.HiddenWork
import MindOne.Lib.LabelledRuns

/-!
# A hidden challenge ends once

The record of a challenge is its row with all that the other tables hold about it.
Every step leaves the record of a challenge alone, opens it, renews its lease or
ends it, and what has been ended stays as it is. A submission that comes again is
answered from the record; apart from an instance that is still to be taken out of
service nothing is written.
-/

namespace MindOne.Evaluations

open CheckedArithmetic Coordinator KeyedTable LabelledRuns
open MindOne.Stream (okOr okOr_eq_ok)

/-- All that is recorded for one challenge. -/
structure ChallengeRecord where
  row : Option HiddenChallenge
  lifecycle : List LifecycleEvent
  signals : List CanaryEvent
  arbitrations : List ArbitrationEvent

/-- The events that report a signal, and not what it leads to. -/
def CanaryEvent.IsSignal (event : CanaryEvent) : Prop :=
  event.eventKind = .signalPassed ∨ event.eventKind = .signalFailed

instance (event : CanaryEvent) : Decidable event.IsSignal := inferInstanceAs (Decidable (_ ∨ _))

/-- The row holds an outcome, and no seed any more. -/
structure HiddenChallenge.Finished (challenge : HiddenChallenge) : Prop where
  status : challenge.status = .succeeded ∨ challenge.status = .failed
  seed : challenge.challengeSeed = none
  result : challenge.resultHash ≠ none ∧ challenge.scoreNormalized ≠ none ∧
    challenge.completedAt ≠ none
  quality : challenge.resultingTier ≠ none ∧ challenge.resultingEvaluationSamples ≠ none

theorem HiddenChallenge.Finished.submitted {challenge : HiddenChallenge}
    {kind idempotencyKey requestHash : String} (h : challenge.Finished) :
    (challenge.submitted kind idempotencyKey requestHash).Finished :=
  ⟨h.status, h.seed, h.result, h.quality⟩

namespace ChallengeRecord
variable (record : ChallengeRecord)

/-- The kinds of the lifecycle events after the first one. -/
def terminalKinds : List LifecycleKind :=
  (record.lifecycle.map LifecycleEvent.eventKind).filter fun kind => kind ≠ .issued

/-- A challenge is completed, and the reason may be noted before. -/
def endings : List (List LifecycleKind) :=
  [[.completed], [.expired, .completed], [.workerFailed, .completed]]

theorem issued_not_mem : ∀ kinds ∈ endings, .issued ∉ kinds := by decide

/-- Nothing has been recorded but that the challenge was issued. -/
structure Open (challenge : HiddenChallenge) : Prop where
  leased : challenge.status = .leased
  seed : challenge.challengeSeed ≠ none
  unsubmitted : challenge.workerSubmissionKind = none
  lifecycle : ∀ event ∈ record.lifecycle, event.eventKind = .issued
  signals : record.signals = []
  arbitrations : record.arbitrations = []

/-- The end is recorded once in every table. -/
structure Ended (challenge : HiddenChallenge) : Prop where
  finished : challenge.Finished
  terminal : record.terminalKinds ∈ endings
  signals : (record.signals.filter fun event => event.IsSignal).length = 1
  arbitrations : record.arbitrations.length ≤ 1

/-- A record is empty, open or ended. -/
inductive Sound : Prop
  | absent : record.row = none → record.lifecycle = [] → record.signals = [] →
      record.arbitrations = [] → Sound
  | open {challenge : HiddenChallenge} : record.row = some challenge → record.Open challenge →
      Sound
  | ended {challenge : HiddenChallenge} : record.row = some challenge →
      record.Ended challenge → Sound

/-- The challenge has been issued and is no longer leased. -/
def HasEnded : Prop := ∃ challenge, record.row = some challenge ∧ challenge.status ≠ .leased

/-- What a step may do to a record. -/
inductive Change (before : ChallengeRecord) : ChallengeRecord → Prop
  | kept : Change before before
  | issued {after : ChallengeRecord} {challenge : HiddenChallenge} : before.row = none →
      after.row = some challenge → after.Open challenge → Change before after
  | renewed {after : ChallengeRecord} {challenge challenge' : HiddenChallenge} :
      before.row = some challenge → challenge.status = .leased → after.row = some challenge' →
      after.Open challenge' → Change before after
  | ended {after : ChallengeRecord} {challenge challenge' : HiddenChallenge} :
      before.row = some challenge → challenge.status = .leased → after.row = some challenge' →
      after.Ended challenge' → Change before after

end ChallengeRecord

namespace EvaluationDb

def record (db : EvaluationDb) (id : Uuid) : ChallengeRecord where
  row := db.challenges.find id
  lifecycle := db.lifecycle.filter fun event => event.challengeId = id
  signals := db.canary.events.filter fun event => event.challengeId = id
  arbitrations := db.arbitrations.filter fun event => event.challengeId = id

def Sound (db : EvaluationDb) : Prop := ∀ id, (db.record id).Sound

end EvaluationDb

namespace ChallengeRecord
variable {before after record : ChallengeRecord} {challenge : HiddenChallenge}

theorem Ended.hasEnded (h : record.Ended challenge) (hrow : record.row = some challenge) :
    record.HasEnded := by
  refine ⟨challenge, hrow, fun hleased => ?_⟩
  rcases h.finished.status with hstatus | hstatus <;> cases hleased.symm.trans hstatus

theorem Sound.open_of_leased (h : record.Sound) (hrow : record.row = some challenge)
    (hleased : challenge.status = .leased) : record.Open challenge := by
  cases h with
  | absent hnone => cases hnone.symm.trans hrow
  | «open» hrow' hopen =>
      cases hrow'.symm.trans hrow
      exact hopen
  | ended hrow' hended =>
      obtain ⟨challenge', hrow'', hne⟩ := hended.hasEnded hrow'
      cases hrow''.symm.trans hrow
      exact absurd hleased hne

theorem Sound.ended_of (h : record.Sound) (hrow : record.row = some challenge)
    (hended : challenge.status ≠ .leased) : record.Ended challenge := by
  cases h with
  | absent hnone => cases hnone.symm.trans hrow
  | «open» hrow' hopen =>
      cases hrow'.symm.trans hrow
      exact absurd hopen.leased hended
  | ended hrow' hended' =>
      cases hrow'.symm.trans hrow
      exact hended'

theorem Change.sound (h : before.Change after) (hsound : before.Sound) : after.Sound := by
  cases h with
  | kept => exact hsound
  | issued _ hrow hopen => exact .open hrow hopen
  | renewed _ _ hrow hopen => exact .open hrow hopen
  | ended _ _ hrow hended => exact .ended hrow hended

/-- What has ended stays as it is. -/
theorem Change.eq_of_hasEnded (h : before.Change after) (hended : before.HasEnded) :
    after = before := by
  obtain ⟨challenge, hrow, hne⟩ := hended
  cases h with
  | kept => rfl
  | issued hnone => cases hnone.symm.trans hrow
  | renewed hrow' hleased | ended hrow' hleased =>
      cases hrow'.symm.trans hrow
      exact absurd hleased hne

end ChallengeRecord

namespace EvaluationDb
variable {services : EvaluationServices} {db next : EvaluationDb} {id : Uuid}

section Finalize

/-- Taking an idle instance out of service is all that differs. -/
structure Finalized (db next : EvaluationDb) (modelInstanceId : Uuid) : Prop where
  challenges : next.challenges = db.challenges
  lifecycle : next.lifecycle = db.lifecycle
  arbitrations : next.arbitrations = db.arbitrations
  canary : next.canary = db.canary
  instances : next.around = db.around ∨ ∃ mi, db.around.instances.find modelInstanceId = some mi ∧
    mi.status = .draining ∧ db.Idle modelInstanceId ∧
    next.around = { db.around with
      instances := db.around.instances.set { mi with status := .unpublished } }

theorem Finalized.refl (db : EvaluationDb) (modelInstanceId : Uuid) :
    Finalized db db modelInstanceId := ⟨rfl, rfl, rfl, rfl, .inl rfl⟩

theorem Finalized.record {modelInstanceId : Uuid} (h : Finalized db next modelInstanceId)
    (id : Uuid) : next.record id = db.record id := by
  simp only [EvaluationDb.record, h.challenges, h.lifecycle, h.arbitrations, h.canary]

theorem finalized (db : EvaluationDb) (modelInstanceId : Uuid) :
    Finalized db (db.finalizeDrainingInstance modelInstanceId) modelInstanceId := by
  unfold finalizeDrainingInstance
  split
  · exact .refl db modelInstanceId
  · rename_i mi hfind
    split
    · rename_i hdraining
      exact ⟨rfl, rfl, rfl, rfl, .inr ⟨mi, hfind, hdraining.1, hdraining.2, rfl⟩⟩
    · exact .refl db modelInstanceId

end Finalize

section Ends

theorem insertLifecycleEvent_of_new {event : LifecycleEvent}
    (h : ∀ known ∈ db.lifecycle, known.challengeId = event.challengeId →
      known.eventKind ≠ event.eventKind) :
    db.insertLifecycleEvent event = { db with lifecycle := db.lifecycle ++ [event] } := by
  refine if_neg ?_
  rintro ⟨known, hmem, hid, hkind⟩
  exact h known hmem hid hkind

/-- Events of kinds that the challenge does not have yet are all inserted. -/
theorem insert_events {challengeId : Uuid} {events : List LifecycleEvent}
    (hid : ∀ event ∈ events, event.challengeId = challengeId)
    (hnodup : (events.map LifecycleEvent.eventKind).Nodup)
    (hnew : ∀ known ∈ db.lifecycle, known.challengeId = challengeId →
      known.eventKind ∉ events.map LifecycleEvent.eventKind) :
    events.foldl insertLifecycleEvent db = { db with lifecycle := db.lifecycle ++ events } := by
  induction events generalizing db with
  | nil => rw [List.foldl_nil, List.append_nil]
  | cons event rest ih =>
      have hevent : event.challengeId = challengeId := hid event List.mem_cons_self
      rw [List.map_cons, List.nodup_cons] at hnodup
      rw [List.foldl_cons, insertLifecycleEvent_of_new, ih (fun other hmem =>
        hid other (List.mem_cons_of_mem _ hmem)) hnodup.2]
      · simp only [List.append_assoc, List.singleton_append]
      · intro known hmem hknown
        rcases List.mem_append.mp hmem with hmem | hmem
        · exact fun hrest => hnew known hmem hknown (List.mem_cons_of_mem _ hrest)
        · rw [List.mem_singleton.mp hmem]
          exact hnodup.1
      · intro known hmem hknown hkind
        exact hnew known hmem (hknown.trans hevent) (hkind ▸ List.mem_cons_self)

/-- An arbitration adds an event of the challenge or nothing. -/
structure Arbitrates (challengeId : Uuid) (db next : EvaluationDb) : Prop where
  challenges : next.challenges = db.challenges
  lifecycle : next.lifecycle = db.lifecycle
  canary : next.canary = db.canary
  arbitrations : ∃ events : List ArbitrationEvent, next.arbitrations = db.arbitrations ++ events ∧
    events.length ≤ 1 ∧ ∀ event ∈ events, event.challengeId = challengeId

theorem arbitrate_ok {transaction : Transaction} {challenge : HiddenChallenge} {passed : Bool}
    {version : Int} {evaluator caseFamily : String} {event : ArbitrationEvent}
    (h : db.arbitrate transaction challenge passed version evaluator caseFamily = .ok event) :
    event.challengeId = challenge.id := by
  simp only [arbitrate, bind_eq_ok] at h
  obtain ⟨_, -, _, -, _, -, _, -, _, -, hevent⟩ := h
  cases hevent
  rfl

theorem recordPrivateAuthenticityArbitration_ok {transaction : Transaction}
    {challenge : HiddenChallenge} {passed : Bool} {authorization : TerminalMutationAuthorization}
    (h : db.recordPrivateAuthenticityArbitration transaction challenge passed authorization =
      .ok next) : Arbitrates challenge.id db next := by
  simp only [recordPrivateAuthenticityArbitration, bind_eq_ok] at h
  obtain ⟨scope, -, h⟩ := h
  cases scope with
  | none =>
      cases h
      exact ⟨rfl, rfl, rfl, [], (List.append_nil _).symm, Nat.zero_le 1, by rintro _ ⟨⟩⟩
  | some scope =>
      obtain ⟨version, evaluator, caseFamily⟩ := scope
      simp only [bind_eq_ok] at h
      obtain ⟨event, hevent, hnext⟩ := h
      cases hnext
      refine ⟨rfl, rfl, rfl, [event], rfl, Nat.le_refl 1, fun other hmem => ?_⟩
      rw [List.mem_singleton.mp hmem]
      exact arbitrate_ok hevent

/-- One signal is reported, and all events name its challenge. -/
theorem emitted_signals (state : CanaryState) (signal : CanarySignal) :
    (∀ event ∈ state.emitted signal, event.challengeId = signal.challengeId) ∧
    ((state.emitted signal).filter fun event => event.IsSignal).length = 1 := by
  simp only [CanaryState.emitted]
  constructor
  · intro event hmem
    rcases List.mem_cons.mp hmem with rfl | hmem
    · rfl
    · split at hmem
      · rw [List.mem_singleton.mp hmem]
      · split at hmem
        · rw [List.mem_singleton.mp hmem]
        · cases hmem
  · rw [List.filter_cons_of_pos, List.length_cons, List.filter_eq_nil_iff.mpr, List.length_nil]
    · intro event hmem
      split at hmem
      · rw [List.mem_singleton.mp hmem]
        simp [CanaryEvent.IsSignal]
      · split at hmem
        · rw [List.mem_singleton.mp hmem]
          simp [CanaryEvent.IsSignal]
        · cases hmem
    · cases signal.passed
      · exact decide_eq_true (.inr rfl)
      · exact decide_eq_true (.inl rfl)

/-- The lists of an end grow by what names its challenge. -/
theorem filter_append_other {α : Type} {l added : List α} {p : α → Bool}
    (h : ∀ a ∈ added, p a = false) : (l ++ added).filter p = l.filter p := by
  have hadded : added.filter p = [] :=
    List.filter_eq_nil_iff.mpr fun a hmem => Bool.not_eq_true (p a) ▸ h a hmem
  rw [List.filter_append, hadded, List.append_nil]

theorem filter_append_own {α : Type} {l added : List α} {p : α → Bool}
    (h : ∀ a ∈ added, p a = true) : (l ++ added).filter p = l.filter p ++ added := by
  rw [List.filter_append, List.filter_eq_self.mpr h]

/-- What `recordEnd` adds to the record of its challenge. -/
structure Records (challengeId : Uuid) (kinds : List LifecycleKind) (db next : EvaluationDb) :
    Prop where
  challenges : next.challenges = db.challenges
  others : ∀ id, id ≠ challengeId → next.record id = db.record id
  lifecycle : ∃ events : List LifecycleEvent, events.map LifecycleEvent.eventKind = kinds ∧
    (next.record challengeId).lifecycle = (db.record challengeId).lifecycle ++ events
  signals : ∃ events : List CanaryEvent,
    (events.filter fun event => event.IsSignal).length = 1 ∧
    (next.record challengeId).signals = (db.record challengeId).signals ++ events
  arbitrations : ∃ events : List ArbitrationEvent, events.length ≤ 1 ∧
    (next.record challengeId).arbitrations = (db.record challengeId).arbitrations ++ events

theorem recordEnd_ok {transaction : Transaction} {challenge : HiddenChallenge}
    {authorization : TerminalMutationAuthorization} {passed : Bool} {reasonCode : CanaryReason}
    {events : List (LifecycleKind × Option String × Option Int)}
    (h : db.recordEnd transaction challenge authorization passed reasonCode events = .ok next)
    (hnodup : (events.map Prod.fst).Nodup) (hissued : .issued ∉ events.map Prod.fst)
    (hopen : ∀ event ∈ (db.record challenge.id).lifecycle, event.eventKind = .issued) :
    Records challenge.id (events.map Prod.fst) db next := by
  simp only [recordEnd, bind_eq_ok] at h
  obtain ⟨snapshot, -, arbitrated, harbitrated, hnext⟩ := h
  have hids : ∀ event ∈ lifecycleEvents challenge.id snapshot events,
      event.challengeId = challenge.id := by
    intro event hmem
    obtain ⟨_, -, rfl⟩ := List.mem_map.mp hmem
    rfl
  have hkinds : (lifecycleEvents challenge.id snapshot events).map LifecycleEvent.eventKind =
      events.map Prod.fst := by
    rw [lifecycleEvents, List.map_map]
    rfl
  rw [insert_events hids (hkinds ▸ hnodup) fun known hmem hid hkind => hissued (by
    rw [hkinds] at hkind
    exact hopen known (List.mem_filter.mpr ⟨hmem, decide_eq_true hid⟩) ▸ hkind)] at harbitrated
  have harbitrates := recordPrivateAuthenticityArbitration_ok harbitrated
  obtain ⟨added, hadded, hlength, haddedIds⟩ := harbitrates.arbitrations
  have hsignals := emitted_signals (arbitrated.canary.state challenge.modelInstanceId)
    ⟨challenge.id, challenge.modelInstanceId, passed, reasonCode, transaction.began⟩
  cases hnext
  have hfinalized := finalized { arbitrated with
    canary := recordInstanceCanarySignal arbitrated.canary
      ⟨challenge.id, challenge.modelInstanceId, passed, reasonCode, transaction.began⟩ }
    challenge.modelInstanceId
  refine {
    challenges := hfinalized.challenges.trans harbitrates.challenges
    others := fun id hne => ?_
    lifecycle := ⟨_, hkinds, ?_⟩
    signals := ⟨_, hsignals.2, ?_⟩
    arbitrations := ⟨added, hlength, ?_⟩ }
  · rw [hfinalized.record]
    simp only [EvaluationDb.record, recordInstanceCanarySignal, harbitrates.challenges,
      harbitrates.lifecycle, harbitrates.canary, hadded]
    congr 1
    · exact filter_append_other fun event hmem =>
        decide_eq_false fun hid => hne (hid.symm.trans (hids event hmem))
    · exact filter_append_other fun event hmem =>
        decide_eq_false fun hid => hne (hid.symm.trans (hsignals.1 event (by
          rw [harbitrates.canary]
          exact hmem)))
    · exact filter_append_other fun event hmem =>
        decide_eq_false fun hid => hne (hid.symm.trans (haddedIds event hmem))
  · rw [hfinalized.record]
    simp only [EvaluationDb.record, harbitrates.lifecycle]
    exact filter_append_own fun event hmem => decide_eq_true (hids event hmem)
  · rw [hfinalized.record]
    simp only [EvaluationDb.record, recordInstanceCanarySignal, harbitrates.canary]
    exact filter_append_own fun event hmem => decide_eq_true (hsignals.1 event (by
      rw [harbitrates.canary]
      exact hmem))
  · rw [hfinalized.record]
    simp only [EvaluationDb.record, hadded]
    exact filter_append_own fun event hmem => decide_eq_true (haddedIds event hmem)

theorem ended_finished (challenge : HiddenChallenge) {status : ChallengeStatus}
    {resultHash : String} {scoreNormalized : Int} {quality : ModelQuality} {completedAt : Int}
    (hstatus : status = .succeeded ∨ status = .failed) :
    (challenge.ended status resultHash scoreNormalized quality completedAt).Finished where
  status := hstatus
  seed := rfl
  result := ⟨Option.some_ne_none _, Option.some_ne_none _, Option.some_ne_none _⟩
  quality := ⟨Option.some_ne_none _, Option.some_ne_none _⟩

/-- `challenge` has been ended with the row `ended`. -/
structure Ends (challenge ended : HiddenChallenge) (db next : EvaluationDb) : Prop where
  others : ∀ id, id ≠ challenge.id → next.record id = db.record id
  row : next.challenges.find challenge.id = some ended
  ended : (next.record challenge.id).Ended ended

/-- The row of a challenge has been written, and nothing else. -/
structure Writes (challenge ended : HiddenChallenge) (db written : EvaluationDb) : Prop where
  row : written.challenges.find challenge.id = some ended
  others : ∀ id, id ≠ challenge.id → written.challenges.find id = db.challenges.find id
  lifecycle : written.lifecycle = db.lifecycle
  canary : written.canary = db.canary
  arbitrations : written.arbitrations = db.arbitrations

theorem Writes.ends {challenge ended : HiddenChallenge} {written : EvaluationDb}
    {kinds : List LifecycleKind} (hwrites : Writes challenge ended db written)
    (hrecords : Records challenge.id kinds written next)
    (hopen : (db.record challenge.id).Open challenge) (hfinished : ended.Finished)
    (hkinds : kinds ∈ ChallengeRecord.endings) : Ends challenge ended db next := by
  have hrecord : ∀ id, (written.record id).lifecycle = (db.record id).lifecycle ∧
      (written.record id).signals = (db.record id).signals ∧
      (written.record id).arbitrations = (db.record id).arbitrations := by
    intro id
    simp only [EvaluationDb.record, hwrites.lifecycle, hwrites.canary, hwrites.arbitrations,
      and_self]
  obtain ⟨hlifecycle, hsignals, harbitrations⟩ := hrecord challenge.id
  refine {
    others := fun id hne => ?_
    row := hrecords.challenges ▸ hwrites.row
    ended := {
      finished := hfinished
      terminal := ?_
      signals := ?_
      arbitrations := ?_ } }
  · rw [hrecords.others id hne]
    simp only [EvaluationDb.record, hwrites.others id hne, hwrites.lifecycle, hwrites.canary,
      hwrites.arbitrations]
  · obtain ⟨events, hmap, hevents⟩ := hrecords.lifecycle
    have hissued : ((db.record challenge.id).lifecycle.map LifecycleEvent.eventKind).filter
        (fun kind => kind ≠ .issued) = [] := by
      refine List.filter_eq_nil_iff.mpr fun kind hmem hne => of_decide_eq_true hne ?_
      obtain ⟨event, hevent, rfl⟩ := List.mem_map.mp hmem
      exact hopen.lifecycle event hevent
    have hterminal : kinds.filter (fun kind => kind ≠ .issued) = kinds :=
      List.filter_eq_self.mpr fun kind hmem => decide_eq_true (by
        rintro rfl
        exact ChallengeRecord.issued_not_mem kinds hkinds hmem)
    rw [ChallengeRecord.terminalKinds, hevents, hlifecycle, List.map_append, List.filter_append,
      hissued, hmap, hterminal]
    exact hkinds
  · obtain ⟨events, hone, hevents⟩ := hrecords.signals
    rw [hevents, hsignals, hopen.signals, List.nil_append, hone]
  · obtain ⟨events, hone, hevents⟩ := hrecords.arbitrations
    rw [hevents, harbitrations, hopen.arbitrations, List.nil_append]
    exact hone

theorem writes_set {challenge ended : HiddenChallenge} (hid : ended.id = challenge.id) :
    Writes challenge ended db { db with challenges := db.challenges.set ended } where
  row := hid ▸ Table.find_set_self
  others _ hne := Table.find_set_ne (hid ▸ hne)
  lifecycle := rfl
  canary := rfl
  arbitrations := rfl

theorem writes_failLeased {challenge : HiddenChallenge} {resultHash : String}
    {quality : ModelQuality} {completedAt : Int}
    (hfind : db.challenges.find challenge.id = some challenge)
    (hleased : challenge.status = .leased) :
    Writes challenge (challenge.ended .failed resultHash 0 quality completedAt) db
      (db.failLeased challenge.id resultHash quality completedAt) where
  row := by
    simp only [failLeased, Table.find_mapRows, hfind, Option.map_some, hleased, and_self, if_true]
  others id hne := by
    simp only [failLeased, Table.find_mapRows]
    cases hother : db.challenges.find id with
    | none => rfl
    | some other =>
        rw [Option.map_some, if_neg]
        exact fun h => hne ((Table.key_of_find hother).symm.trans h.1)
  lifecycle := rfl
  canary := rfl
  arbitrations := rfl

section Operations
variable {transaction : Transaction} {challenge : HiddenChallenge}
  {authorization : TerminalMutationAuthorization}

theorem completeExpiredFailure_ok
    (h : db.completeExpiredFailure services transaction challenge authorization = .ok next)
    (hfind : db.challenges.find challenge.id = some challenge)
    (hopen : (db.record challenge.id).Open challenge) :
    ∃ ended, Ends challenge ended db next ∧ ended.workerSubmissionKind = none := by
  simp only [completeExpiredFailure, bind_eq_ok] at h
  obtain ⟨-, -, seed, -, quality, -, hrecordEnd⟩ := h
  have hrecords := recordEnd_ok hrecordEnd (by simp) (by simp) hopen.lifecycle
  exact ⟨_, (writes_failLeased hfind hopen.leased).ends hrecords hopen
    (ended_finished challenge (.inr rfl)) (by simp [ChallengeRecord.endings]), hopen.unsubmitted⟩

theorem finishResult_ok {request : JobResultRequest}
    (h : db.finishResult services transaction request challenge authorization = .ok next)
    (hopen : (db.record challenge.id).Open challenge) :
    ∃ ended, Ends challenge ended db next ∧ ended.workerSubmissionKind = some "result" ∧
      ended.workerIdempotencyKey = some request.idempotencyKey ∧
      ended.workerRequestHash = some (services.resultRequestHash request) := by
  simp only [finishResult, bind_eq_ok] at h
  obtain ⟨seed, -, output, -, passed, -, quality, -, hrecordEnd⟩ := h
  have hrecords := recordEnd_ok hrecordEnd (by simp) (by simp) hopen.lifecycle
  refine ⟨_, Writes.ends (writes_set ?_) hrecords hopen ?_ (by simp [ChallengeRecord.endings]),
    rfl, rfl, rfl⟩
  · rfl
  · refine (ended_finished challenge ?_).submitted
    cases passed
    · exact .inr rfl
    · exact .inl rfl

theorem finishFailure_ok {request : JobFailRequest}
    (h : db.finishFailure services transaction request challenge authorization = .ok next)
    (hopen : (db.record challenge.id).Open challenge) :
    ∃ ended, Ends challenge ended db next ∧ ended.workerSubmissionKind = some "fail" ∧
      ended.workerIdempotencyKey = some request.idempotencyKey ∧
      ended.workerRequestHash = some (services.failureRequestHash request) := by
  simp only [finishFailure, bind_eq_ok] at h
  obtain ⟨seed, -, quality, -, hrecordEnd⟩ := h
  have hrecords := recordEnd_ok hrecordEnd (by simp) (by simp) hopen.lifecycle
  refine ⟨_, Writes.ends (writes_set ?_) hrecords hopen ?_ (by simp [ChallengeRecord.endings]),
    rfl, rfl, rfl⟩
  · rfl
  · exact (ended_finished challenge (.inr rfl)).submitted

theorem Ends.change {ended : HiddenChallenge} (h : Ends challenge ended db next)
    (hfind : db.challenges.find challenge.id = some challenge)
    (hleased : challenge.status = .leased) (id : Uuid) :
    (db.record id).Change (next.record id) := by
  by_cases hid : id = challenge.id
  · subst hid
    exact .ended hfind hleased h.row h.ended
  · rw [h.others id hid]
    exact .kept

/-- A row that is written while it stays leased. -/
theorem Writes.renews {renewed : HiddenChallenge} (h : Writes challenge renewed db next)
    (hopen : (db.record challenge.id).Open challenge)
    (hfind : db.challenges.find challenge.id = some challenge) (hleased : renewed.status = .leased)
    (hseed : renewed.challengeSeed ≠ none) (hunsubmitted : renewed.workerSubmissionKind = none)
    (id : Uuid) : (db.record id).Change (next.record id) := by
  obtain ⟨hfirst, -, -, hlifecycle, hsignals, harbitrations⟩ := hopen
  by_cases hid : id = challenge.id
  · subst hid
    refine .renewed hfind hfirst h.row ⟨hleased, hseed, hunsubmitted, ?_, ?_, ?_⟩
    · simpa only [EvaluationDb.record, h.lifecycle] using hlifecycle
    · simpa only [EvaluationDb.record, h.canary] using hsignals
    · simpa only [EvaluationDb.record, h.arbitrations] using harbitrations
  · have hkept : next.record id = db.record id := by
      simp only [EvaluationDb.record, h.others id hid, h.lifecycle, h.canary, h.arbitrations]
    rw [hkept]
    exact .kept

theorem Sound.of_change (h : db.Sound)
    (hchange : ∀ id, (db.record id).Change (next.record id)) : next.Sound :=
  fun id => (hchange id).sound (h id)

/-- Distinct leased challenges end one after the other. -/
theorem expireChallenges_change {capability : Option String} {challenges : List HiddenChallenge}
    (h : db.expireChallenges services transaction capability challenges = .ok next)
    (hsound : db.Sound) (hnodup : (challenges.map HiddenChallenge.id).Nodup)
    (hfind : ∀ challenge ∈ challenges, db.challenges.find challenge.id = some challenge ∧
      challenge.status = .leased) :
    (∀ id, (db.record id).Change (next.record id)) ∧
    ∀ id, id ∉ challenges.map HiddenChallenge.id → next.record id = db.record id := by
  induction challenges generalizing db with
  | nil =>
      cases h
      exact ⟨fun id => .kept, fun id _ => rfl⟩
  | cons challenge rest ih =>
      simp only [expireChallenges, List.foldlM_cons, bind_eq_ok] at h
      obtain ⟨ended, ⟨authorization, -, hended⟩, hrest⟩ := h
      rw [List.map_cons, List.nodup_cons] at hnodup
      obtain ⟨hrow, hleased⟩ := hfind challenge List.mem_cons_self
      obtain ⟨_, hends, -⟩ := completeExpiredFailure_ok hended hrow
        ((hsound challenge.id).open_of_leased hrow hleased)
      have hhead := hends.change hrow hleased
      have hne : ∀ other ∈ rest, other.id ≠ challenge.id := fun other hmem heq =>
        hnodup.1 (heq ▸ List.mem_map_of_mem hmem)
      obtain ⟨htail, hothers⟩ := ih hrest (hsound.of_change hhead) hnodup.2 fun other hmem =>
        ⟨(congrArg ChallengeRecord.row (hends.others other.id (hne other hmem))).trans
          (hfind other (List.mem_cons_of_mem _ hmem)).1, (hfind other (List.mem_cons_of_mem _ hmem)).2⟩
      constructor
      · intro id
        by_cases hid : id = challenge.id
        · rw [hothers id (hid ▸ hnodup.1)]
          exact hhead id
        · rw [← hends.others id hid]
          exact htail id
      · intro id hid
        rw [List.map_cons, List.mem_cons, not_or] at hid
        rw [hothers id hid.2, hends.others id hid.1]

theorem nodup_of_sublist {rows challenges : List HiddenChallenge}
    (hnodup : (rows.map HiddenChallenge.id).Nodup) (h : challenges.Subperm rows) :
    (challenges.map HiddenChallenge.id).Nodup := by
  obtain ⟨middle, hperm, hsublist⟩ := h
  exact (hperm.map HiddenChallenge.id).nodup_iff.mp (hnodup.sublist (hsublist.map _))

/-- The rows that a transaction has selected for their end. -/
theorem expire_selected {capability : Option String} {challenges : List HiddenChallenge}
    (h : db.expireChallenges services transaction capability challenges = .ok next)
    (hsound : db.Sound) (hsub : challenges.Subperm db.challenges.rows)
    (hleased : ∀ challenge ∈ challenges, challenge.status = .leased) (id : Uuid) :
    (db.record id).Change (next.record id) :=
  (expireChallenges_change h hsound (nodup_of_sublist db.challenges.nodup hsub)
    fun challenge hmem => ⟨Table.find_of_mem (hsub.subset hmem), hleased challenge hmem⟩).1 id

theorem expireStaleChallenges_change {nodeId : Uuid} {locked : Uuid → Bool} (hsound : db.Sound)
    (h : db.expireStaleChallenges services transaction nodeId locked = .ok next) (id : Uuid) :
    (db.record id).Change (next.record id) := by
  refine expire_selected h hsound ?_ ?_ id
  · exact (List.mergeSort_perm _ _).subperm.trans List.filter_sublist.subperm
  · intro challenge hmem
    have hselected := (List.mem_filter.mp ((List.mergeSort_perm _ _).mem_iff.mp hmem)).2
    simp only [decide_eq_true_eq] at hselected
    exact hselected.2.1.1

theorem sweepExpiredHiddenJobs_change {capability : Option String} {includeV2 : Bool}
    {locked : Uuid → Bool} (hsound : db.Sound)
    (h : db.sweepExpiredHiddenJobs services transaction capability includeV2 locked = .ok next)
    (id : Uuid) : (db.record id).Change (next.record id) := by
  refine expire_selected h hsound ?_ ?_ id
  · exact ((List.take_sublist _ _).subperm.trans (List.mergeSort_perm _ _).subperm).trans
      List.filter_sublist.subperm
  · intro challenge hmem
    have hsorted := (List.take_sublist _ _).subset hmem
    have hselected := (List.mem_filter.mp ((List.mergeSort_perm _ _).mem_iff.mp hsorted)).2
    simp only [decide_eq_true_eq] at hselected
    exact hselected.1.1

end Operations

end Ends

section Requests
variable {transaction : Transaction} {principal : Principal} {jobId : Uuid}

theorem hiddenJobRow_find {row : HiddenRow} (h : db.hiddenJobRow jobId = some row) :
    db.challenges.find jobId = some row.challenge ∧ row.challenge.id = jobId := by
  simp only [hiddenJobRow, Option.bind_eq_bind, Option.bind_eq_some_iff, Option.pure_def,
    Option.some.injEq] at h
  obtain ⟨challenge, hfind, node, -, model, -, rfl⟩ := h
  exact ⟨hfind, Table.key_of_find hfind⟩

/-- A submission that ends its challenge, or one that finds it ended. -/
theorem submit_change {nodeId : Uuid} {kind idempotencyKey requestHash : String}
    {replay : HiddenChallenge → ApiResult HiddenAnswer}
    {finish : HiddenChallenge → TerminalMutationAuthorization → ApiResult EvaluationDb}
    {answer : HiddenAnswer} {told : ApiResult HiddenAnswer} (hsound : db.Sound)
    (hfinish : ∀ challenge authorization next, finish challenge authorization = .ok next →
      (db.record challenge.id).Open challenge → ∃ ended, Ends challenge ended db next)
    (h : db.submit services transaction principal jobId nodeId kind idempotencyKey requestHash
      replay finish answer = .ok (next, told)) (id : Uuid) :
    (db.record id).Change (next.record id) := by
  unfold submit at h
  split at h
  · cases h
  · rename_i row hrow
    obtain ⟨hfind, hid⟩ := hiddenJobRow_find hrow
    subst hid
    simp only [bind_eq_ok] at h
    obtain ⟨authorization, -, -, -, h⟩ := h
    have hkept : (db.record id).Change
        ((db.finalizeDrainingInstance row.challenge.modelInstanceId).record id) := by
      rw [(finalized db _).record]
      exact .kept
    split at h
    · simp only [bind_eq_ok] at h
      obtain ⟨-, -, _, -, hnext⟩ := h
      cases hnext
      exact hkept
    · split at h
      · cases h
        exact hkept
      · split at h
        · rename_i hexpired
          simp only [bind_eq_ok] at h
          obtain ⟨expired, hended, hnext⟩ := h
          cases hnext
          obtain ⟨_, hends, -⟩ := completeExpiredFailure_ok hended hfind
            ((hsound _).open_of_leased hfind hexpired.1)
          exact hends.change hfind hexpired.1 id
        · simp only [ensureLiveLease, bind_eq_ok, rejectIf_eq_ok, not_not] at h
          obtain ⟨-, ⟨-, hleased, -⟩, ended, hended, hnext⟩ := h
          cases hnext
          obtain ⟨_, hends⟩ := hfinish _ _ _ hended
            ((hsound _).open_of_leased hfind hleased)
          exact hends.change hfind hleased id

theorem renewHiddenJob_change {nodeId : Uuid} {policy : ApiResult Unit}
    {told : ApiResult HiddenAnswer} (hsound : db.Sound)
    (h : db.renewHiddenJob services transaction principal jobId nodeId policy = .ok (next, told))
    (id : Uuid) : (db.record id).Change (next.record id) := by
  unfold renewHiddenJob at h
  split at h
  · cases h
  · rename_i row hrow
    obtain ⟨hfind, hid⟩ := hiddenJobRow_find hrow
    subst hid
    simp only [bind_eq_ok, rejectIf_eq_ok, not_not] at h
    obtain ⟨authorization, -, -, -, -, hleased, h⟩ := h
    have hopen := (hsound _).open_of_leased hfind hleased
    split at h
    · simp only [bind_eq_ok] at h
      obtain ⟨expired, hended, hnext⟩ := h
      cases hnext
      obtain ⟨_, hends, -⟩ := completeExpiredFailure_ok hended hfind hopen
      exact hends.change hfind hleased id
    · simp only [bind_eq_ok] at h
      obtain ⟨-, -, hnext⟩ := h
      cases hnext
      have hwrites : Writes row.challenge { row.challenge with
        leaseExpiresAt := cappedExpiry (transaction.later + services.leaseDuration)
          row.challenge.privateCatalogValidUntil } db _ := writes_set rfl
      exact hwrites.renews hopen hfind hleased hopen.seed hopen.unsubmitted id

theorem expireHiddenJobIfNeeded_change {nodeId : Uuid} {told : ApiResult HiddenAnswer}
    (hsound : db.Sound)
    (h : db.expireHiddenJobIfNeeded services transaction principal jobId nodeId =
      .ok (next, told)) (id : Uuid) : (db.record id).Change (next.record id) := by
  unfold expireHiddenJobIfNeeded at h
  split at h
  · cases h
    exact .kept
  · rename_i row hrow
    obtain ⟨hfind, hid⟩ := hiddenJobRow_find hrow
    subst hid
    simp only [bind_eq_ok] at h
    obtain ⟨authorization, -, -, -, h⟩ := h
    split at h
    · rename_i hexpired
      simp only [bind_eq_ok] at h
      obtain ⟨expired, hended, hnext⟩ := h
      cases hnext
      obtain ⟨_, hends, -⟩ := completeExpiredFailure_ok hended hfind
        ((hsound _).open_of_leased hfind hexpired.1)
      exact hends.change hfind hexpired.1 id
    · cases h
      exact .kept

theorem serve_change {request : WorkerRequest} {told : ApiResult HiddenAnswer}
    (hsound : db.Sound)
    (h : db.serve services transaction principal jobId request = .ok (next, told)) (id : Uuid) :
    (db.record id).Change (next.record id) := by
  cases request with
  | result request =>
      simp only [serve, submitHiddenJobResult] at h
      refine submit_change hsound (fun challenge authorization next h hopen => ?_) h id
      obtain ⟨ended, hends, -⟩ := finishResult_ok h hopen
      exact ⟨ended, hends⟩
  | failure request =>
      simp only [serve, submitHiddenJobFailure] at h
      refine submit_change hsound (fun challenge authorization next h hopen => ?_) h id
      obtain ⟨ended, hends, -⟩ := finishFailure_ok h hopen
      exact ⟨ended, hends⟩
  | renew nodeId policy => exact renewHiddenJob_change hsound h id
  | expireIfNeeded nodeId => exact expireHiddenJobIfNeeded_change hsound h id

end Requests

section Replays
variable (services) {transaction : Transaction} {principal : Principal}
  {challenge : HiddenChallenge}

/-- The node that a request names. -/
def WorkerRequest.nodeId : WorkerRequest → Uuid
  | .result request => request.nodeId
  | .failure request => request.nodeId
  | .renew nodeId _ | .expireIfNeeded nodeId => nodeId

/-- What an accepted submission is answered with. -/
def WorkerRequest.outcome (idempotentReplay : Bool) : WorkerRequest → Option HiddenAnswer
  | .result _ => some (.result idempotentReplay)
  | .failure _ => some (.failure idempotentReplay)
  | .renew _ _ | .expireIfNeeded _ => none

/-- The challenge has been ended by this submission. -/
def RecordedAs (challenge : HiddenChallenge) (kind idempotencyKey requestHash : String) : Prop :=
  challenge.workerSubmissionKind = some kind ∧
    challenge.workerIdempotencyKey = some idempotencyKey ∧
    challenge.workerRequestHash = some requestHash

def Recorded (challenge : HiddenChallenge) : WorkerRequest → Prop
  | .result request => RecordedAs challenge "result" request.idempotencyKey
      (services.resultRequestHash request)
  | .failure request => RecordedAs challenge "fail" request.idempotencyKey
      (services.failureRequestHash request)
  | .renew _ _ | .expireIfNeeded _ => False

/-- The challenge is held by the principal, and the service may end it. -/
def Admits (db : EvaluationDb) (principal : Principal) (jobId nodeId : Uuid) : Prop :=
  ∃ row, db.hiddenJobRow jobId = some row ∧ row.Owned principal nodeId ∧
    ∃ authorization, authorizeTerminalRow row.challenge services.terminalCapability =
      .ok authorization

variable {services}

theorem verifyIdempotentHiddenSubmission_ok {kind idempotencyKey requestHash : String} {u : Unit} :
    verifyIdempotentHiddenSubmission challenge kind idempotencyKey requestHash = .ok u ↔
      RecordedAs challenge kind idempotencyKey requestHash := by
  simp only [verifyIdempotentHiddenSubmission, rejectIf_eq_ok, RecordedAs, not_or, not_not]

section Submissions
variable {jobId nodeId : Uuid} {kind idempotencyKey requestHash : String}
  {replay : HiddenChallenge → ApiResult HiddenAnswer}
  {finish : HiddenChallenge → TerminalMutationAuthorization → ApiResult EvaluationDb}
  {answer : HiddenAnswer}

/-- A submission for an ended challenge commits nothing but what finalizing its instance
writes, and succeeds only as a replay. -/
theorem submit_ended {told : ApiResult HiddenAnswer}
    (hfind : db.challenges.find jobId = some challenge) (hended : challenge.status ≠ .leased)
    (h : db.submit services transaction principal jobId nodeId kind idempotencyKey requestHash
      replay finish answer = .ok (next, told)) :
    Finalized db next challenge.modelInstanceId ∧
    ∀ given, told = .ok given → RecordedAs challenge kind idempotencyKey requestHash := by
  unfold submit at h
  split at h
  · cases h
  · rename_i row hrow
    obtain rfl := Option.some.inj (hfind.symm.trans (hiddenJobRow_find hrow).1)
    simp only [bind_eq_ok] at h
    obtain ⟨authorization, -, -, -, h⟩ := h
    split at h
    · simp only [bind_eq_ok, verifyIdempotentHiddenSubmission_ok] at h
      obtain ⟨_, hrecorded, replayed, -, hnext⟩ := h
      cases hnext
      exact ⟨finalized db _, fun _ _ => hrecorded⟩
    · split at h
      · cases h
        refine ⟨finalized db _, ?_⟩
        intro given hgiven
        cases hgiven
      · split at h
        · rename_i hexpired
          exact absurd hexpired.1 hended
        · simp only [ensureLiveLease, bind_eq_ok, rejectIf_eq_ok, not_not] at h
          obtain ⟨-, ⟨-, hleased, -⟩, -⟩ := h
          exact absurd hleased hended

variable (replay) in
theorem submit_replayed {replayed : HiddenAnswer}
    (hfind : db.challenges.find jobId = some challenge)
    (hrecorded : RecordedAs challenge kind idempotencyKey requestHash)
    (hadmits : Admits services db principal jobId nodeId)
    (hreplay : replay challenge = .ok replayed) :
    answerOf (db.submit services transaction principal jobId nodeId kind idempotencyKey
      requestHash replay finish answer) = .ok replayed := by
  obtain ⟨row, hrow, howned, authorization, hauthorized⟩ := hadmits
  obtain rfl := Option.some.inj (hfind.symm.trans (hiddenJobRow_find hrow).1)
  have hkind : row.challenge.workerSubmissionKind ≠ none := by
    rw [hrecorded.1]
    exact Option.some_ne_none kind
  have hverified : verifyIdempotentHiddenSubmission row.challenge kind idempotencyKey
      requestHash = .ok () := verifyIdempotentHiddenSubmission_ok.mpr hrecorded
  simp only [submit, hrow, hauthorized, rejectIf_of_not _ (not_not.mpr howned), hkind,
    hverified, hreplay, bind, Except.bind, ne_eq, not_false_eq_true, if_true, pure, Except.pure,
    answerOf]

/-- A submission that is accepted for the first time. -/
theorem submit_accepted (hsound : db.Sound) {ends : HiddenChallenge → Prop}
    (hfinish : ∀ challenge authorization next, finish challenge authorization = .ok next →
      (db.record challenge.id).Open challenge → ∃ ended, Ends challenge ended db next ∧ ends ended)
    (hreplay : ∀ challenge, replay challenge ≠ .ok answer)
    (h : db.submit services transaction principal jobId nodeId kind idempotencyKey requestHash
      replay finish answer = .ok (next, .ok answer)) :
    ∃ ended, next.challenges.find jobId = some ended ∧
      (next.record jobId).Ended ended ∧ ends ended := by
  unfold submit at h
  split at h
  · cases h
  · rename_i row hrow
    obtain ⟨hfind, hid⟩ := hiddenJobRow_find hrow
    subst hid
    simp only [bind_eq_ok] at h
    obtain ⟨authorization, -, -, -, h⟩ := h
    split at h
    · simp only [bind_eq_ok] at h
      obtain ⟨-, -, replayed, hreplayed, hnext⟩ := h
      cases hnext
      exact absurd hreplayed (hreplay _)
    · split at h
      · cases h
      · split at h
        · simp only [bind_eq_ok] at h
          obtain ⟨_, -, hnext⟩ := h
          cases hnext
        · simp only [ensureLiveLease, bind_eq_ok, rejectIf_eq_ok, not_not] at h
          obtain ⟨-, ⟨-, hleased, -⟩, _, hended, hnext⟩ := h
          cases hnext
          obtain ⟨ended, hends, hrecorded⟩ := hfinish _ _ _ hended
            ((hsound _).open_of_leased hfind hleased)
          exact ⟨ended, hends.row, hends.ended, hrecorded⟩

end Submissions

/-- Whatever is asked about an ended challenge, nothing but its instance is written, and
only the submission that has ended it is accepted. -/
theorem serve_ended {jobId : Uuid} (hfind : db.challenges.find jobId = some challenge)
    (hended : challenge.status ≠ .leased) (request : WorkerRequest) :
    Finalized db (db.after (db.serve services transaction principal jobId request))
      challenge.modelInstanceId ∧
    ∀ answer, answerOf (db.serve services transaction principal jobId request) = .ok answer →
      Recorded services challenge request ∨ answer = .expired false := by
  cases hserve : db.serve services transaction principal jobId request with
  | error error => exact ⟨.refl db _, fun _ h => nomatch h⟩
  | ok outcome =>
      obtain ⟨next, told⟩ := outcome
      cases request with
      | result request =>
          obtain ⟨hfinalized, hrecorded⟩ := submit_ended hfind hended hserve
          exact ⟨hfinalized, fun answer h => .inl (hrecorded answer h)⟩
      | failure request =>
          simp only [serve, submitHiddenJobFailure] at hserve
          obtain ⟨hfinalized, hrecorded⟩ := submit_ended hfind hended hserve
          exact ⟨hfinalized, fun answer h => .inl (hrecorded answer h)⟩
      | renew nodeId policy =>
          simp only [serve, renewHiddenJob] at hserve
          split at hserve
          · cases hserve
          · rename_i row hrow
            obtain rfl := Option.some.inj (hfind.symm.trans (hiddenJobRow_find hrow).1)
            simp only [bind_eq_ok, rejectIf_eq_ok, not_not] at hserve
            obtain ⟨-, -, -, -, -, hleased, -⟩ := hserve
            exact absurd hleased hended
      | expireIfNeeded nodeId =>
          simp only [serve, expireHiddenJobIfNeeded] at hserve
          split at hserve
          · cases hserve
            exact ⟨.refl db _, fun _ h => .inr (Except.ok.inj h).symm⟩
          · rename_i row hrow
            obtain rfl := Option.some.inj (hfind.symm.trans (hiddenJobRow_find hrow).1)
            simp only [bind_eq_ok] at hserve
            obtain ⟨_, -, -, -, hserve⟩ := hserve
            split at hserve
            · rename_i hexpired
              exact absurd hexpired.1 hended
            · cases hserve
              exact ⟨.refl db _, fun _ h => .inr (Except.ok.inj h).symm⟩

/-- The submission that has ended a challenge is answered with its outcome again. -/
theorem serve_replayed {jobId : Uuid} {request : WorkerRequest}
    (hfind : db.challenges.find jobId = some challenge) (hfinished : challenge.Finished)
    (hrecorded : Recorded services challenge request)
    (hadmits : Admits services db principal jobId request.nodeId) :
    (answerOf (db.serve services transaction principal jobId request)).toOption =
      request.outcome true := by
  cases request with
  | result request =>
      have hreplay : terminalResultResponse challenge = .ok (.result true) := by
        rcases hfinished.status with hstatus | hstatus <;>
          simp [terminalResultResponse, hstatus, rejectIf, bind, Except.bind, pure, Except.pure]
      exact congrArg Except.toOption (submit_replayed _ hfind hrecorded hadmits hreplay)
  | failure request =>
      exact congrArg Except.toOption
        (submit_replayed (fun _ => .ok (.failure true)) hfind hrecorded hadmits rfl)
  | renew _ _ | expireIfNeeded _ => exact hrecorded.elim

/-- A submission that is accepted for the first time has ended its challenge. -/
theorem serve_accepted {jobId : Uuid} {request : WorkerRequest} {answer : HiddenAnswer}
    (hsound : db.Sound)
    (h : db.serve services transaction principal jobId request = .ok (next, .ok answer))
    (houtcome : request.outcome false = some answer) :
    ∃ ended, next.challenges.find jobId = some ended ∧ (next.record jobId).Ended ended ∧
      Recorded services ended request := by
  cases request with
  | result request =>
      cases houtcome
      simp only [serve, submitHiddenJobResult] at h
      refine submit_accepted hsound (fun _ _ _ h hopen => finishResult_ok h hopen) ?_ h
      intro challenge hreplay
      simp only [terminalResultResponse, bind_eq_ok] at hreplay
      obtain ⟨-, -, hreplay⟩ := hreplay
      cases hreplay
  | failure request =>
      cases houtcome
      simp only [serve, submitHiddenJobFailure] at h
      refine submit_accepted hsound (fun _ _ _ h hopen => finishFailure_ok h hopen) ?_ h
      intro challenge hreplay
      cases hreplay
  | renew _ _ | expireIfNeeded _ => cases houtcome

end Replays

section Runs
variable {event : EvaluationEvent}

theorem step_change (hsound : db.Sound) (made : step services event db = some next) (id : Uuid) :
    (db.record id).Change (next.record id) := by
  cases event with
  | issue challenge event =>
      simp only [step, Option.ite_none_right_eq_some] at made
      obtain ⟨⟨hnone, hleased, hseed, hunsubmitted, hevent, hissued⟩, hnext⟩ := made
      cases hnext
      by_cases hid : id = challenge.id
      · subst hid
        have hsoundId := hsound challenge.id
        cases hsoundId with
        | absent _ hlifecycle hsignals harbitrations =>
            refine .issued hnone Table.find_set_self
              ⟨hleased, hseed, hunsubmitted, fun other hmem => ?_, hsignals, harbitrations⟩
            obtain ⟨hmem, hother⟩ := List.mem_filter.mp hmem
            rcases List.mem_append.mp hmem with hmem | hmem
            · have hnil : other ∈ (db.record challenge.id).lifecycle :=
                List.mem_filter.mpr ⟨hmem, hother⟩
              rw [hlifecycle] at hnil
              cases hnil
            · rw [List.mem_singleton.mp hmem, hissued]
        | «open» hrow => cases hnone.symm.trans hrow
        | ended hrow => cases hnone.symm.trans hrow
      · have hkept : (db.lifecycle ++ [event]).filter (fun event => event.challengeId = id) =
            db.lifecycle.filter fun event => event.challengeId = id :=
          filter_append_other fun other hmem => decide_eq_false fun hother => hid (by
            rw [← hother, List.mem_singleton.mp hmem, hevent])
        simp only [EvaluationDb.record, Table.find_set_ne hid, hkept]
        exact .kept
  | serve transaction principal jobId request =>
      cases made
      cases hserve : db.serve services transaction principal jobId request with
      | error error => exact .kept
      | ok outcome => exact serve_change hsound hserve id
  | sweep transaction capability includeV2 locked =>
      simp only [step] at made
      split at made <;> cases made
      · exact sweepExpiredHiddenJobs_change hsound ‹_› id
      · exact .kept
  | expireStale transaction nodeId locked =>
      simp only [step] at made
      split at made <;> cases made
      · exact expireStaleChallenges_change hsound ‹_› id
      · exact .kept
  | elsewhere around =>
      cases made
      exact .kept

theorem initial_sound (around : Surroundings) : (initial around).Sound :=
  fun _ => .absent rfl rfl rfl rfl

theorem Sound.run {past : List EvaluationEvent} (h : db.Sound)
    (run : Run (step services) Anything db past next) : next.Sound :=
  run.stays h fun h _ made => h.of_change (step_change h made)

/-- The record of an ended challenge stays as it is, whatever happens. -/
theorem run_record {past : List EvaluationEvent} (hsound : db.Sound)
    (hended : (db.record id).HasEnded) (run : Run (step services) Anything db past next) :
    next.record id = db.record id := by
  induction run with
  | start => rfl
  | step earlier _ made ih =>
      have hchange := step_change (hsound.run earlier) made id
      exact (hchange.eq_of_hasEnded (ih ▸ hended)).trans ih

/-- What holds of the challenges in a database, whatever has happened. -/
structure EndsOnce (services : EvaluationServices) (db : EvaluationDb) : Prop where
  sound : ∀ id, (db.record id).Sound
  kept : ∀ id, (db.record id).HasEnded → ∀ {further later},
    Run (step services) Anything db further later → later.record id = db.record id
  accepted : ∀ transaction principal jobId request next answer,
    db.serve services transaction principal jobId request = .ok (next, .ok answer) →
    request.outcome false = some answer →
    ∃ ended, next.challenges.find jobId = some ended ∧ (next.record jobId).Ended ended ∧
      Recorded services ended request
  finalized : ∀ jobId challenge, db.challenges.find jobId = some challenge →
    challenge.status ≠ .leased → ∀ transaction principal request,
      Finalized db (db.after (db.serve services transaction principal jobId request))
        challenge.modelInstanceId
  replayed : ∀ jobId challenge, db.challenges.find jobId = some challenge →
    challenge.status ≠ .leased → ∀ transaction principal request,
      Recorded services challenge request → Admits services db principal jobId request.nodeId →
      (answerOf (db.serve services transaction principal jobId request)).toOption =
        request.outcome true
  refused : ∀ jobId challenge, db.challenges.find jobId = some challenge →
    challenge.status ≠ .leased → ∀ transaction principal request answer,
      answerOf (db.serve services transaction principal jobId request) = .ok answer →
      Recorded services challenge request ∨ answer = .expired false

/-- A challenge ends once: its record is complete and stays as it is, the submission that
ended it can be repeated, and whatever else is asked about it is turned away. -/
theorem hidden_challenge_ends_once {around : Surroundings} {past : List EvaluationEvent}
    (run : Run (step services) Anything (initial around) past db) : EndsOnce services db := by
  have hsound : db.Sound := (initial_sound around).run run
  exact {
    sound := hsound
    kept := fun id hended _ _ further => run_record hsound hended further
    accepted := fun _ _ _ _ _ _ hserve houtcome => serve_accepted hsound hserve houtcome
    finalized := fun _ _ hfind hended _ _ request => (serve_ended hfind hended request).1
    replayed := fun jobId _ hfind hended _ _ _ hrecorded hadmits =>
      serve_replayed hfind ((hsound jobId).ended_of hfind hended).finished hrecorded hadmits
    refused := fun _ _ hfind hended _ _ request => (serve_ended hfind hended request).2 }

end Runs

section Sample

def sampleServices : EvaluationServices where
  resultRequestHash request := request.resultCiphertext ++ "#"
  failureRequestHash request := request.errorMessage ++ "#"
  saltedCommitment _ _ text := text ++ "+"
  sha256Hex text := text ++ "#"
  commitmentMatches _ _ _ := .ok true
  validatedOutput _ _ request := .ok request.resultCiphertext
  leaseDuration := 60
  terminalCapability := none

def samplePrincipal : Principal := ⟨.fromU128 1, .fromU128 2⟩

/-- The instance is draining, and a job is still leased on it. -/
def sampleAround (leasedJobs : List Uuid) : Surroundings where
  instances := Table.empty.set ⟨.fromU128 3, .fromU128 4, .fromU128 5, .draining⟩
  leasedJobs
  nodes := Table.empty.set ⟨.fromU128 5, .fromU128 1, some (.fromU128 2), .online, .standard, none,
    none, none⟩
  models := Table.empty.set ⟨.fromU128 4, "low", 0⟩

def sampleChallenge : HiddenChallenge where
  id := .fromU128 6
  modelId := .fromU128 4
  modelInstanceId := .fromU128 3
  nodeId := .fromU128 5
  challengeKind := .canary
  challengeSeed := some (List.replicate 32 7)
  promptHash := some "prompt"
  expectedHash := some "expected"
  status := .leased
  leaseExpiresAt := 100
  resultHash := none
  scoreNormalized := none
  resultingTier := none
  resultingEvaluationSamples := none
  completedAt := none
  workerSubmissionKind := none
  workerIdempotencyKey := none
  workerRequestHash := none
  modelWeightsHash := none
  challengeBindingHash := none
  privateCatalogId := none
  privateCatalogEntryId := none
  privateCaseFamily := none
  privateCatalogCommitment := none
  privateEvaluatorId := none
  privateEvaluatorKeyFingerprint := none
  privateCatalogValidUntil := none
  privateCommitmentVersion := none
  privateCommitment _ := none
  claimedUserId := some (.fromU128 1)
  claimedDeviceKeyId := some (.fromU128 2)
  claimDeviceBindingVersion := some deviceBindingVersion

def sampleFailure : WorkerRequest :=
  .failure ⟨.fromU128 5, "key", .engine, "out of memory", false⟩

def sampleTransaction : Transaction := ⟨50, 50, 50, fun id => id⟩

/-- The challenge is handed out and fails, and then the other job is gone. -/
def sampleEvents : List EvaluationEvent :=
  [.issue sampleChallenge ⟨.fromU128 6, .issued, some "prompt", none, none, none⟩,
    .serve sampleTransaction samplePrincipal (.fromU128 6) sampleFailure,
    .elsewhere (sampleAround [])]

def sampleStatuses (db : EvaluationDb) : List ChallengeStatus × List InstanceStatus :=
  (db.challenges.rows.map HiddenChallenge.status,
    db.around.instances.rows.map ModelInstance.status)

theorem hidden_challenge_ends_once_sample : ∃ db : EvaluationDb,
    sampleStatuses db = ([.failed], [.draining]) ∧ EndsOnce sampleServices db := by
  have hexecuted : ((execute (step sampleServices) Anything [] sampleEvents
      (initial (sampleAround [.fromU128 3]))).map sampleStatuses) =
        some ([.failed], [.draining]) := by decide +kernel
  obtain ⟨db, hrun, hstatuses⟩ := Option.map_eq_some_iff.mp hexecuted
  exact ⟨db, hstatuses, hidden_challenge_ends_once (Run.start.execute hrun)⟩

/-- The end of a challenge takes two lifecycle events, and the repeated report takes the
instance out of service. -/
theorem hidden_challenge_end_writes : ∃ past db,
    Run (step sampleServices) Anything (initial (sampleAround [.fromU128 3])) past db ∧
    (db.record (.fromU128 6)).terminalKinds = [.workerFailed, .completed] ∧
    sampleStatuses db = ([.failed], [.draining]) ∧
    (answerOf (db.serve sampleServices sampleTransaction samplePrincipal (.fromU128 6)
      sampleFailure)).toOption = some (.failure true) ∧
    sampleStatuses (db.after (db.serve sampleServices sampleTransaction samplePrincipal
      (.fromU128 6) sampleFailure)) = ([.failed], [.unpublished]) := by
  have hexecuted : ((execute (step sampleServices) Anything [] sampleEvents
      (initial (sampleAround [.fromU128 3]))).map fun db =>
        decide ((db.record (.fromU128 6)).terminalKinds = [.workerFailed, .completed] ∧
          sampleStatuses db = ([.failed], [.draining]) ∧
          (answerOf (db.serve sampleServices sampleTransaction samplePrincipal (.fromU128 6)
            sampleFailure)).toOption = some (.failure true) ∧
          sampleStatuses (db.after (db.serve sampleServices sampleTransaction samplePrincipal
            (.fromU128 6) sampleFailure)) = ([.failed], [.unpublished]))) = some true := by
    decide +kernel
  obtain ⟨db, hrun, hdecided⟩ := Option.map_eq_some_iff.mp hexecuted
  exact ⟨_, db, Run.start.execute hrun, of_decide_eq_true hdecided⟩

end Sample

end EvaluationDb

end MindOne.Evaluations

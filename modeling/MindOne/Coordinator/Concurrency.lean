import MindOne.Coordinator.Admission
import MindOne.Coordinator.Reservations

/-!
# The unexpired leases of a node

A lease is written by a transaction that holds the row of its node and has counted
the other leases in a later statement. What it has counted can only get fewer until
it commits, so that the leases of a node stay within its limit at every moment.
-/

namespace MindOne.Coordinator

open CheckedArithmetic KeyedTable ReadCommitted

/-- Identifiers are drawn at random: no job and no challenge share one. -/
def Db.IdentifiersApart (db : Db) : Prop :=
  ∀ job ∈ db.jobs.rows, ∀ challenge ∈ db.workers.challenges.rows, job.id ≠ challenge.id

instance (db : Db) : Decidable db.IdentifiersApart :=
  inferInstanceAs (Decidable (∀ job ∈ db.jobs.rows, _))

/-- What every statement may rely on. -/
def DrawsApart (_ _ : Int) (_ : Statement) (_ : Stage) (_ current : Db) : Prop :=
  current.IdentifiersApart

instance (began now : Int) (stmt : Statement) (stage : Stage) (snapshot current : Db) :
    Decidable (DrawsApart began now stmt stage snapshot current) :=
  inferInstanceAs (Decidable current.IdentifiersApart)

theorem Db.IdentifiersApart.challenge_not_held {db : Db} (h : db.IdentifiersApart) {job : Job}
    (hjob : job ∈ db.jobs.rows) {nodeId : Uuid} {now : Int} :
    SlotKey.challenge job.id ∉ leases.held db nodeId now := by
  intro hheld
  obtain ⟨row, hrow, -⟩ := Table.mem_keysWhere.mp hheld
  obtain ⟨hmem, hkey⟩ := Table.find_eq_some.mp hrow
  cases row with
  | challenge challenge =>
      exact h job hjob challenge (Db.mem_slots.mp hmem) (SlotKey.challenge.inj hkey).symm
  | job row => cases hkey
  | route row => cases hkey

theorem Db.IdentifiersApart.job_not_held {db : Db} (h : db.IdentifiersApart)
    {challenge : EvaluationChallenge} (hchallenge : challenge ∈ db.workers.challenges.rows)
    {nodeId : Uuid} {now : Int} : SlotKey.job challenge.id ∉ leases.held db nodeId now := by
  intro hheld
  obtain ⟨row, hrow, -⟩ := Table.mem_keysWhere.mp hheld
  obtain ⟨hmem, hkey⟩ := Table.find_eq_some.mp hrow
  cases row with
  | job row => exact h row (Db.mem_slots.mp hmem) challenge hchallenge (SlotKey.job.inj hkey)
  | challenge row => cases hkey
  | route row => cases hkey

/-- What a transaction knows about the leases of the node that it has locked. -/
def Stage.KnowsLeases (began : Int) (db : Db) : Stage → Prop
  | .claimLocked locked _ | .claimOffered locked _ _ | .renewLocked locked _ =>
      db.limit locked.node.id = some locked.policy.maxConcurrent
  | .claimChecked locked _ | .claimAdmitted locked _ _ =>
      db.limit locked.node.id = some locked.policy.maxConcurrent ∧
        (leases.held db locked.node.id began).card < locked.policy.maxConcurrent
  | .renewLeased locked job =>
      db.limit locked.node.id = some locked.policy.maxConcurrent ∧
        ∀ now, SlotKey.challenge job.id ∉ leases.held db locked.node.id now
  | .renewChecked locked jobId =>
      db.limit locked.node.id = some locked.policy.maxConcurrent ∧
        (leases.held db locked.node.id began \ {.job jobId}).card < locked.policy.maxConcurrent
  | .renewExtended locked jobId =>
      db.limit locked.node.id = some locked.policy.maxConcurrent ∧
        ∀ now, SlotKey.job jobId ∉ leases.held db locked.node.id now
  | _ => True

/-- The node for which a hidden lease is written but not yet checked. -/
def Stage.extending : Stage → Option Uuid
  | .renewExtended locked _ => some locked.node.id
  | _ => none

theorem Stage.MayCommit.extending {stage : Stage} (h : stage.MayCommit) :
    stage.extending = none := by
  cases stage with
  | renewExtended locked jobId => exact h.elim
  | _ => rfl

/-- Unless a lease awaits its check, the node is within its bound. -/
structure Stage.LeasesKnown (nodeId : Uuid) (stage : Stage) (began now : Int) (db : Db) :
    Prop where
  bounded : stage.extending ≠ some nodeId → leases.Bounded nodeId now db
  known : stage.node = some nodeId → stage.KnowsLeases began db

section Knowledge
variable {nodeId : Uuid} {stage : Stage} {began now now' : Int} {db after before : Db}

theorem Stage.KnowsLeases.mono
    (h : ∀ locked, stage.node = some locked → leases.Shrinks locked after before)
    (known : stage.KnowsLeases began before) : stage.KnowsLeases began after := by
  cases stage with
  | claimLocked locked _ | claimOffered locked _ _ | renewLocked locked _ =>
      exact (h _ rfl).1.trans known
  | claimChecked locked _ | claimAdmitted locked _ _ =>
      exact ⟨(h _ rfl).1.trans known.1,
        (Finset.card_le_card ((h _ rfl).2 began)).trans_lt known.2⟩
  | renewLeased locked job | renewExtended locked jobId =>
      exact ⟨(h _ rfl).1.trans known.1, fun now hheld => known.2 now ((h _ rfl).2 now hheld)⟩
  | renewChecked locked jobId =>
      exact ⟨(h _ rfl).1.trans known.1,
        (Finset.card_le_card (Finset.sdiff_subset_sdiff ((h _ rfl).2 began) subset_rfl)).trans_lt
          known.2⟩
  | opened | routeFree _ | routeLocked _ | routeChecked _ | routeUsed _ _ | finished _ =>
      exact known

theorem Stage.LeasesKnown.mono (h : leases.Shrinks nodeId after before)
    (known : stage.LeasesKnown nodeId began now before) :
    stage.LeasesKnown nodeId began now after := by
  refine ⟨fun hmay => (known.bounded hmay).mono h, fun hnode => ?_⟩
  refine (known.known hnode).mono fun locked hlocked => ?_
  rw [hnode, Option.some.injEq] at hlocked
  exact hlocked ▸ h

/-- What was counted in a snapshot behind the lock holds of the current rows. -/
theorem card_held_lt {excluded : Option Uuid} {m : Nat}
    (h : leases.Shrinks nodeId after before)
    (room : activeCount before.jobs.rows before.workers.challenges.rows nodeId began excluded < m) :
    (leases.held after nodeId began \ withoutItem excluded).card < m := by
  rw [activeCount_eq_card] at room
  exact (Finset.card_le_card (Finset.sdiff_subset_sdiff (h.2 began) subset_rfl)).trans_lt room

/-- One more row behind the lock fills at most the slot that was free. -/
theorem bounded_writeSlot {row : SlotRow} {m : Nat} (hlater : began ≤ now)
    (limit : db.limit nodeId = some m)
    (room : (leases.held db nodeId began \ {row.key}).card < m) :
    leases.Bounded nodeId now ([row].foldl Db.writeSlot db) := by
  intro m' hm'
  rw [Db.limit_foldl_writeSlot, limit, Option.mem_some_iff] at hm'
  subst hm'
  calc (leases.held (db.writeSlot row) nodeId now).card
      ≤ (leases.held (db.writeSlot row) nodeId began).card :=
        Finset.card_le_card (Occupancy.held_earlier hlater)
    _ ≤ (leases.held db nodeId began \ {row.key}).card + 1 := Occupancy.card_held_writeSlot_le
    _ ≤ m := room

theorem leases_only {row : SlotRow} (only : row.Only nodeId) {other : Uuid} (hne : other ≠ nodeId)
    (now : Int) : leases.takes other now row = false := by
  rw [Bool.eq_false_iff]
  exact fun htakes => hne (only other now (leases_takes htakes))

theorem leases_idle {row : SlotRow} (idle : row.Idle) : leases.takes nodeId now row = false := by
  rw [Bool.eq_false_iff]
  intro htakes
  have hidle := idle nodeId now
  rw [leases_takes htakes] at hidle
  cases hidle

theorem leases_shrinks_of_idle (nodeId : Uuid) (db : Db) {rows : List SlotRow}
    (idle : ∀ row ∈ rows, row.Idle) :
    leases.Shrinks nodeId (rows.foldl Db.writeSlot db) db :=
  Occupancy.shrinks_foldl fun row hrow _ => leases_idle (idle row hrow)

section Steps
variable {snapshot current : Db} {stage' : Stage} {rows : List SlotRow} {locked : LockedNode}
  {jobId : Uuid}

/-- Nothing grows at a node that the transaction has not locked. -/
theorem Effect.leases_shrinks (effect : Effect began snapshot current stage stage' rows)
    (hnode : stage'.node ≠ some nodeId) :
    leases.Shrinks nodeId (rows.foldl Db.writeSlot db) db := by
  refine Occupancy.shrinks_foldl fun row hrow now => ?_
  rw [Bool.eq_false_iff]
  intro htakes
  have hidle := effect.only hnode row hrow now
  rw [leases_takes htakes] at hidle
  cases hidle

theorem Effect.leasesKnown_elsewhere (effect : Effect began snapshot current stage stage' rows)
    (hnode : stage'.node ≠ some nodeId) (known : stage.LeasesKnown nodeId began now current) :
    stage'.LeasesKnown nodeId began now (rows.foldl Db.writeSlot current) := by
  have hbefore : stage.node ≠ some nodeId := by
    rcases effect.node with hnone | hsame
    · simp [hnone]
    · exact hsame ▸ hnode
  have hextending : stage.extending ≠ some nodeId := by
    cases stage with
    | renewExtended locked jobId => exact hbefore
    | _ => simp [Stage.extending]
  exact ⟨fun _ => (known.bounded hextending).mono (effect.leases_shrinks hnode),
    fun h => absurd h hnode⟩

/-- A renewal leaves out its own lease, and no challenge under the same identifier. -/
theorem room_without_job
    (hchallenge : ∀ now, SlotKey.challenge jobId ∉ leases.held current nodeId now)
    (fresh : leases.Shrinks nodeId current snapshot) {m : Nat}
    (room : activeCount snapshot.jobs.rows snapshot.workers.challenges.rows nodeId began
      (some jobId) < m) :
    (leases.held current nodeId began \ {.job jobId}).card < m := by
  refine (Finset.card_le_card fun key hkey => ?_).trans_lt (card_held_lt fresh room)
  obtain ⟨hheld, hne⟩ := Finset.mem_sdiff.mp hkey
  refine Finset.mem_sdiff.mpr ⟨hheld, fun hitem => ?_⟩
  rcases Finset.mem_insert.mp hitem with rfl | hitem
  · exact hne (Finset.mem_singleton_self _)
  · rw [Finset.mem_singleton.mp hitem] at hheld
    exact hchallenge began hheld

/-- With the lease of the challenge itself, the others make up at most the limit. -/
theorem card_held_le_of_hidden (hlater : began ≤ now)
    (hjob : ∀ now, SlotKey.job jobId ∉ leases.held current nodeId now)
    (fresh : leases.Shrinks nodeId current snapshot) {m : Nat}
    (room : activeCount snapshot.jobs.rows snapshot.workers.challenges.rows nodeId began
      (some jobId) < m) : (leases.held current nodeId now).card ≤ m := by
  have hitem := card_held_lt fresh room
  have hsubset : leases.held current nodeId now ⊆ insert (.challenge jobId)
      (leases.held current nodeId began \ withoutItem (some jobId)) := by
    intro key hkey
    have hheld := Occupancy.held_earlier hlater hkey
    by_cases hchallenge : key = .challenge jobId
    · exact hchallenge ▸ Finset.mem_insert_self _ _
    · refine Finset.mem_insert_of_mem (Finset.mem_sdiff.mpr ⟨hheld, fun hitem => ?_⟩)
      rcases Finset.mem_insert.mp hitem with rfl | hitem
      · exact hjob began hheld
      · exact hchallenge (Finset.mem_singleton.mp hitem)
  have hcard := (Finset.card_le_card hsubset).trans (Finset.card_insert_le _ _)
  omega

/-- Writing the row of a challenge adds no lease of a job. -/
theorem job_not_held_writeSlot {challenge : EvaluationChallenge}
    (hjob : ∀ now, SlotKey.job jobId ∉ leases.held current nodeId now) :
    ∀ now, SlotKey.job jobId ∉
      leases.held ([SlotRow.challenge challenge].foldl Db.writeSlot current) nodeId now := by
  intro now hheld
  have hinsert := Occupancy.held_writeSlot (.challenge challenge) hheld
  rcases Finset.mem_insert.mp hinsert with hkey | hkey
  · cases hkey
  · exact hjob now (Finset.sdiff_subset hkey)

/-- The steps of a transaction keep what it knows about the node that it has locked. -/
theorem Effect.leasesKnown_locked (effect : Effect began snapshot current stage stage' rows)
    (apart : current.IdentifiersApart) (hlater : began ≤ now)
    (fresh : stage.node = some nodeId → leases.Shrinks nodeId current snapshot)
    (known : stage.LeasesKnown nodeId began now current) (hnode : stage'.node = some nodeId) :
    stage'.LeasesKnown nodeId began now (rows.foldl Db.writeSlot current) := by
  cases effect with
  | entered node kind limit =>
      rw [node, Option.some.injEq] at hnode
      refine ⟨fun _ => known.bounded (by simp [Stage.extending]), fun _ => ?_⟩
      rcases kind with ⟨mi, rfl⟩ | ⟨jobId, rfl⟩
      · exact limit
      · exact limit
  | ended kind may idle =>
      have hafter := known.mono (leases_shrinks_of_idle nodeId current idle)
      rcases kind with rfl | ⟨locked, _, rfl⟩
      · exact hafter
      · exact ⟨fun _ => hafter.bounded (by simp [may.extending]), fun _ => trivial⟩
  | claimChecked room | admitted room =>
      cases hnode
      have hroom := card_held_lt (fresh rfl) room
      rw [withoutItem, Finset.sdiff_empty] at hroom
      exact ⟨fun _ => known.bounded (by simp [Stage.extending]), fun _ => ⟨known.known rfl, hroom⟩⟩
  | hidden only | leased _ only =>
      cases hnode
      obtain ⟨limit, room⟩ := known.known rfl
      exact ⟨fun _ => bounded_writeSlot hlater limit
        ((Finset.card_le_card Finset.sdiff_subset).trans_lt room), fun _ => trivial⟩
  | offered limit room =>
      cases hnode
      exact ⟨fun _ => known.bounded (by simp [Stage.extending]), fun _ => (known.known rfl).1⟩
  | selected found =>
      cases hnode
      exact ⟨fun _ => known.bounded (by simp [Stage.extending]),
        fun _ => ⟨known.known rfl, fun _ => apart.challenge_not_held found⟩⟩
  | renewChecked room =>
      cases hnode
      obtain ⟨limit, hchallenge⟩ := known.known rfl
      exact ⟨fun _ => known.bounded (by simp [Stage.extending]),
        fun _ => ⟨limit, room_without_job hchallenge (fresh rfl) room⟩⟩
  | extended id only =>
      cases hnode
      obtain ⟨limit, room⟩ := known.known rfl
      exact ⟨fun _ => bounded_writeSlot hlater limit (by rw [SlotRow.key, id]; exact room),
        fun _ => trivial⟩
  | @hiddenExtended locked _ challenge found id only =>
      cases hnode
      obtain ⟨old, hold, rfl⟩ := found
      exact ⟨fun hne => absurd rfl hne, fun _ => ⟨Db.limit_foldl_writeSlot.trans (known.known rfl),
        job_not_held_writeSlot fun _ => apart.job_not_held hold⟩⟩
  | hiddenChecked room =>
      cases hnode
      obtain ⟨limit, hjob⟩ := known.known rfl
      refine ⟨fun _ m hm => ?_, fun _ => trivial⟩
      have hlimit := limit.symm.trans hm
      cases hlimit
      exact card_held_le_of_hidden hlater hjob (fresh rfl) room
  | nodeChecked limit room | routeChecked limit room =>
      exact ⟨fun _ => known.bounded (by simp [Stage.extending]), fun _ => trivial⟩
  | prepared only =>
      refine ⟨fun _ => (known.bounded (by simp [Stage.extending])).mono ?_, fun _ => trivial⟩
      refine Occupancy.shrinks_foldl fun row hrow now => ?_
      rw [List.mem_singleton.mp hrow]
      rfl
  | routeSelected => cases hnode
  | inserted waits only =>
      refine ⟨fun _ => (known.bounded (by simp [Stage.extending])).mono ?_, fun _ => trivial⟩
      refine Occupancy.shrinks_foldl fun row hrow now => ?_
      rw [List.mem_singleton.mp hrow]
      refine decide_eq_false ?_
      rintro ⟨-, hleased, -⟩
      rw [waits] at hleased
      cases hleased
  | used id idle =>
      refine ⟨fun _ => (known.bounded (by simp [Stage.extending])).mono ?_, fun _ => trivial⟩
      exact leases_shrinks_of_idle _ _ fun row hrow => List.mem_singleton.mp hrow ▸ idle

theorem Effect.leasesKnown (effect : Effect began snapshot current stage stage' rows)
    (apart : current.IdentifiersApart) (hlater : began ≤ now)
    (fresh : stage.node = some nodeId → leases.Shrinks nodeId current snapshot)
    (known : stage.LeasesKnown nodeId began now current) :
    stage'.LeasesKnown nodeId began now (rows.foldl Db.writeSlot current) := by
  by_cases hnode : stage'.node = some nodeId
  · exact effect.leasesKnown_locked apart hlater fresh known hnode
  · exact effect.leasesKnown_elsewhere hnode known

end Steps

end Knowledge

/-- Anything else that happens adds no lease to any node and keeps the limits. -/
def LeavesLeases (before after : Db) : Prop := ∀ nodeId, leases.Shrinks nodeId after before

/-- Every lease that is there afterwards was there before, in the same row. -/
structure EndsLeases (before after : Db) : Prop where
  policies : after.workers.nodePolicies = before.workers.nodePolicies
  jobs : ∀ job ∈ after.jobs.rows, job.status = .leased → job ∈ before.jobs.rows
  challenges : ∀ challenge ∈ after.workers.challenges.rows, challenge.status = .leased →
    challenge ∈ before.workers.challenges.rows

namespace EndsLeases
variable {before after last : Db}

theorem refl (db : Db) : EndsLeases db db := ⟨rfl, fun _ h _ => h, fun _ h _ => h⟩

theorem trans (h : EndsLeases before after) (h' : EndsLeases after last) :
    EndsLeases before last where
  policies := h'.policies.trans h.policies
  jobs job hjob leased := h.jobs job (h'.jobs job hjob leased) leased
  challenges challenge hchallenge leased :=
    h.challenges challenge (h'.challenges challenge hchallenge leased) leased

theorem leavesLeases (h : EndsLeases before after) : LeavesLeases before after := by
  refine fun nodeId => ⟨by rw [Db.limit, Db.limit, h.policies], fun now key hkey => ?_⟩
  obtain ⟨row, hrow, htakes⟩ := Table.mem_keysWhere.mp hkey
  obtain ⟨hmem, rfl⟩ := Table.find_eq_some.mp hrow
  have hbefore : row ∈ before.slots.rows := by
    cases row with
    | job job =>
        have hleased : job.LeasedBy nodeId now := of_decide_eq_true htakes
        exact Db.mem_slots.mpr (h.jobs job (Db.mem_slots.mp hmem) hleased.2.1)
    | challenge challenge =>
        have hleased : challenge.LeasedBy nodeId now := of_decide_eq_true htakes
        exact Db.mem_slots.mpr (h.challenges challenge (Db.mem_slots.mp hmem) hleased.2.1)
    | route route => cases htakes
  exact Table.mem_keysWhere.mpr ⟨row, Table.find_of_mem hbefore, htakes⟩

theorem putJob (db : Db) {job : Job} (h : job.status ≠ .leased) :
    EndsLeases db (db.putJob job) where
  policies := rfl
  jobs other hother leased := by
    rcases Table.mem_set.mp hother with rfl | ⟨hmem, -⟩
    · exact absurd leased h
    · exact hmem
  challenges _ hchallenge _ := hchallenge

theorem finalize (db : Db) (modelInstanceId : Option Uuid) :
    EndsLeases db (db.finalizeDrainingInstance modelInstanceId) := by
  cases modelInstanceId <;> exact ⟨rfl, fun _ h _ => h, fun _ h _ => h⟩

theorem updateLeasedAttempt (db : Db) (jobId : Uuid) (n : Int) (f : JobAttempt → JobAttempt) :
    EndsLeases db (db.updateLeasedAttempt jobId n f) := by
  unfold Db.updateLeasedAttempt
  split
  · split
    · exact ⟨rfl, fun _ h _ => h, fun _ h _ => h⟩
    · exact refl db
  · exact refl db

theorem release {userId : Uuid} {amount : Int}
    (h : before.releaseReservation userId amount = .ok after) : EndsLeases before after := by
  obtain ⟨ledger, -, rfl⟩ := releaseReservation_eq_ok h
  exact ⟨rfl, fun _ h _ => h, fun _ h _ => h⟩

end EndsLeases

section Endings
variable {env : Services} {db after : Db} {principal : Principal} {jobId nodeId : Uuid}
  {nowUtc : Int}

theorem failRegulatedLeaseAttestation_endsLeases {message : String}
    (h : failRegulatedLeaseAttestation db jobId message = .ok after) : EndsLeases db after := by
  unfold failRegulatedLeaseAttestation at h
  cases hjob : db.jobs.find jobId with
  | none => simp [hjob] at h
  | some job =>
      simp only [hjob, bind_eq_ok] at h
      obtain ⟨_, -, released, hrelease, attempt, -, hafter⟩ := h
      cases hafter
      have hattempt (attempt : JobAttempt) : EndsLeases released (released.putAttempt attempt) :=
        ⟨rfl, fun _ h _ => h, fun _ h _ => h⟩
      exact (((EndsLeases.release hrelease).trans (hattempt _)).trans
        (.putJob _ (by simp))).trans (.finalize _ _)

theorem recordFailure_endsLeases {job : Job} {request : JobFailRequest}
    (h : recordFailure db job request nowUtc = .ok after) : EndsLeases db after := by
  simp only [recordFailure, bind_eq_ok] at h
  obtain ⟨_, -, ended, hended, hafter⟩ := h
  cases hafter
  have hattempt := EndsLeases.updateLeasedAttempt db job.id job.attemptCount fun attempt =>
    attempt.recordFailure request db.now
  refine (hattempt.trans ?_).trans (.finalize ended job.modelInstanceId)
  unfold finishFailure at hended
  split at hended
  · cases hended
    exact .putJob _ (by simp [Job.retried])
  · obtain ⟨released, hrelease, hafter⟩ := bind_eq_ok.mp hended
    cases hafter
    exact (EndsLeases.release hrelease).trans (.putJob _ (by simp))

theorem endChallenge_endsLeases {ended : EvaluationChallenge} {passed : Bool}
    (h : ended.status ≠ .leased) : EndsLeases db (db.endChallenge env ended passed) := by
  have hwritten : EndsLeases db { db with workers := { db.workers with
      challenges := db.workers.challenges.set ended
      quarantined := env.canarySignal db ended.modelInstanceId passed } } := by
    refine ⟨rfl, fun _ h _ => h, fun other hother leased => ?_⟩
    rcases Table.mem_set.mp hother with rfl | ⟨hmem, -⟩
    · exact absurd leased h
    · exact hmem
  exact hwritten.trans (.finalize _ (some ended.modelInstanceId))

theorem completeExpiredFailure_endsLeases {challenge : EvaluationChallenge}
    (h : completeExpiredFailure env db challenge = .ok after) : EndsLeases db after := by
  simp only [completeExpiredFailure, bind_eq_ok] at h
  obtain ⟨_, -, hafter⟩ := h
  cases hafter
  exact endChallenge_endsLeases (by simp)

theorem submitHidden_endsLeases {kind idempotencyKey requestHash : String}
    {replayable : EvaluationChallenge → ApiResult Unit}
    {score : EvaluationChallenge → ApiResult Bool} {answer : ApiResult Bool}
    (h : submitHidden env db principal jobId nodeId kind idempotencyKey requestHash nowUtc
      replayable score = .ok (after, answer)) : EndsLeases db after := by
  unfold submitHidden at h
  cases hrow : hiddenJobRow db jobId with
  | none => simp [hrow] at h
  | some row =>
      simp only [hrow, bind_eq_ok] at h
      obtain ⟨_, -, _, -, h⟩ := h
      split at h
      · obtain ⟨_, -, h⟩ := bind_eq_ok.mp h
        obtain ⟨_, -, hafter⟩ := bind_eq_ok.mp h
        cases hafter
        exact .finalize _ _
      · split at h
        · cases h
          exact .finalize _ _
        · split at h
          · obtain ⟨_, hexpired, hafter⟩ := bind_eq_ok.mp h
            cases hafter
            exact completeExpiredFailure_endsLeases hexpired
          · simp only [bind_eq_ok, rejectIf_eq_ok, exists_const] at h
            obtain ⟨-, passed, -, hafter⟩ := h
            cases hafter
            refine endChallenge_endsLeases ?_
            cases passed <;> simp

theorem submitUnlessExpired_endsLeases {submit : Db → ApiResult (Db × ApiResult Bool)}
    {answer : ApiResult Bool}
    (hsubmit : ∀ {swept answer}, submit swept = .ok (after, answer) → EndsLeases swept after)
    (h : submitUnlessExpired env db principal jobId nodeId nowUtc submit = .ok (after, answer)) :
    EndsLeases db after := by
  simp only [submitUnlessExpired, bind_eq_ok] at h
  obtain ⟨⟨swept, expired⟩, hswept, h⟩ := h
  have hfirst : EndsLeases db swept := by
    unfold expireHiddenJobIfNeeded at hswept
    cases hrow : hiddenJobRow db jobId with
    | none =>
        simp only [hrow] at hswept
        cases hswept
        exact .refl db
    | some row =>
        simp only [hrow, bind_eq_ok] at hswept
        obtain ⟨_, -, _, -, hswept⟩ := hswept
        split at hswept
        · obtain ⟨_, hexpired, hafter⟩ := bind_eq_ok.mp hswept
          cases hafter
          exact completeExpiredFailure_endsLeases hexpired
        · cases hswept
          exact .refl db
  split at h
  · cases h
    exact hfirst
  · exact hfirst.trans (hsubmit h)

/-- A failure report ends leases and adds none. -/
theorem jobFail_endsLeases {request : JobFailRequest} {answer : ApiResult JobFailResponse}
    (h : jobFail env db principal jobId request nowUtc = .ok (after, answer)) :
    EndsLeases db after := by
  have ordinary {response : JobFailResponse}
      (h : failOrdinaryJob db principal jobId request nowUtc = .ok (after, response)) :
      EndsLeases db after := by
    unfold failOrdinaryJob at h
    cases hrecorded : recordedAttempt db jobId request.idempotencyKey with
    | some recorded =>
        obtain ⟨attempt, node⟩ := recorded
        simp only [hrecorded, bind_eq_ok] at h
        obtain ⟨_, -, hafter⟩ := h
        cases hafter
        exact .refl db
    | none =>
        simp only [hrecorded, reportFailure] at h
        cases hrows : leaseRows db jobId with
        | none => simp [hrows] at h
        | some rows =>
            simp only [hrows, bind_eq_ok] at h
            obtain ⟨_, -, _, -, _, -, failed, hfailed, hafter⟩ := h
            cases hafter
            exact recordFailure_endsLeases hfailed
  simp only [jobFail, bind_eq_ok] at h
  obtain ⟨_, -, _, -, kind, -, h⟩ := h
  cases kind with
  | hidden =>
      obtain ⟨⟨submitted, _⟩, hsubmitted, hafter⟩ := bind_eq_ok.mp h
      cases hafter
      exact submitUnlessExpired_endsLeases submitHidden_endsLeases hsubmitted
  | ordinary | missing =>
      obtain ⟨⟨failed, _⟩, hfailed, hafter⟩ := bind_eq_ok.mp h
      cases hafter
      exact ordinary hfailed

theorem settleJob_endsLeases {rows : CompletionRows} {command : CompleteJob} {fingerprint : String}
    {stamps : SettlementStamps} {outcome : SettlementOutcome}
    (h : settleJob env db rows command fingerprint stamps = .ok (after, outcome)) :
    EndsLeases db after := by
  simp only [settleJob, bind_eq_ok] at h
  obtain ⟨billing, -, baseCostMicro, -, _, -, amounts, hamounts, ⟨paid, hashes⟩, hpaid,
    snapshotHash, -, receipted, hreceipted, _, -, ciphertext, -, _, -, _, -, hafter⟩ := h
  obtain ⟨ledger, -, rfl⟩ := payJob_paid (settlementAmounts_sum hamounts) hpaid
  obtain rfl := insertReceipt_eq_ok hreceipted
  cases hafter
  have hattempt (db : Db) (key : String) :
      EndsLeases db (db.succeedAttempt rows.job key) := by
    unfold Db.succeedAttempt
    split
    · exact .refl db
    · exact ⟨rfl, fun _ h _ => h, fun _ h _ => h⟩
  have hpaid (receipt : Receipt) : EndsLeases db
      { db with ledger, receipts := db.receipts.set receipt } :=
    ⟨rfl, fun _ h _ => h, fun _ h _ => h⟩
  exact (((hpaid _).trans (.putJob _ (by simp))).trans (hattempt _ _)).trans (.finalize _ _)

/-- A submitted result ends leases and adds none. -/
theorem jobResult_endsLeases {request : JobResultRequest} {stamps : SettlementStamps}
    {answer : ApiResult Bool}
    (h : jobResult env db principal jobId request nowUtc stamps = .ok (after, answer)) :
    EndsLeases db after := by
  have ordinary {command : CompleteJob} {answer : ApiResult SettlementOutcome}
      (h : completeJob env db command stamps = .ok (after, answer)) : EndsLeases db after := by
    simp only [completeJob, bind_eq_ok] at h
    obtain ⟨_, -, h⟩ := h
    cases hrows : completionRows db command.jobId with
    | none => simp [hrows] at h
    | some rows =>
        simp only [hrows, bind_eq_ok] at h
        obtain ⟨_, -, fingerprint, -, h⟩ := h
        split at h
        · obtain ⟨_, -, hafter⟩ := bind_eq_ok.mp h
          cases hafter
          exact .refl db
        · simp only [bind_eq_ok] at h
          obtain ⟨_, -, h⟩ := h
          unfold completeLeasedJob at h
          split at h
          · obtain ⟨failed, hfailed, hafter⟩ := bind_eq_ok.mp h
            cases hafter
            exact failRegulatedLeaseAttestation_endsLeases hfailed
          · simp only [bind_eq_ok] at h
            obtain ⟨_, -, _, -, ⟨settled, outcome⟩, hsettled, hafter⟩ := h
            cases hafter
            exact settleJob_endsLeases hsettled
  simp only [jobResult, bind_eq_ok] at h
  obtain ⟨_, -, kind, -, h⟩ := h
  cases kind with
  | hidden => exact submitUnlessExpired_endsLeases submitHidden_endsLeases h
  | ordinary | missing =>
      obtain ⟨_, -, h⟩ := bind_eq_ok.mp h
      obtain ⟨⟨settled, _⟩, hsettled, hafter⟩ := bind_eq_ok.mp h
      cases hafter
      exact ordinary hsettled

end Endings

/-- The leases of every node stay within its limit under all interleavings. -/
def leaseGuard (env : Services) : Guard (admission env) LeavesLeases DrawsApart where
  le := leases.Shrinks
  bounded := leases.Bounded
  relies stage nodeId := stage.node = some nodeId
  knows := Stage.LeasesKnown
  le_refl := .refl
  le_trans := .trans
  apply_mono := .writeSlot
  elsewhere_le h := h _
  bounded_mono := .mono
  bounded_later := .later
  knows_mono := .mono
  knows_later h known := ⟨fun hne => (known.bounded hne).later h, known.known⟩
  relies_opened h := Stage.opened_node_ne h
  commits may known _ := known.bounded (by simp [Stage.MayCommit.extending may])
  relies_execute := admission_node
  shrinks h hrelies _ := (admission_effect h).1.leases_shrinks hrelies
  learns_held h apart hlater fresh known :=
    (admission_effect h).1.leasesKnown apart hlater (fun _ => fresh) known
  learns_locked h apart hlater _ hrelies hbounded :=
    (admission_effect h).1.leasesKnown apart hlater (fun hnode => absurd hnode hrelies)
      ⟨fun _ => hbounded, fun hnode => absurd hnode hrelies⟩

/-- At every moment of every interleaving of claims, renewals and anything that adds
no lease, the unexpired leases of a node are within its limit. -/
theorem unexpired_leases_bounded (env : Services) {τ : Type} [DecidableEq τ] {clock : Int}
    {initial : Db} {sys : System Int Db SlotRow Uuid Stage Statement τ}
    (hinit : ∀ nodeId policy, initial.workers.nodePolicies.find nodeId = some policy →
      activeCount initial.jobs.rows initial.workers.challenges.rows nodeId clock none ≤
        policy.maxConcurrent)
    (h : ReadCommitted.Reachable (admission env) LeavesLeases DrawsApart clock initial sys)
    {nodeId : Uuid} {policy : NodePolicyRow}
    (hpolicy : sys.committed.workers.nodePolicies.find nodeId = some policy) :
    activeCount sys.committed.jobs.rows sys.committed.workers.challenges.rows nodeId sys.clock none
      ≤ policy.maxConcurrent := by
  have hbounded : ∀ nodeId, leases.Bounded nodeId clock initial := by
    intro nodeId m hm
    obtain ⟨policy, hfind, rfl⟩ := Option.map_eq_some_iff.mp hm
    have hcount := hinit nodeId policy hfind
    rwa [activeCount_eq_card, withoutItem, Finset.sdiff_empty] at hcount
  have sound := (leaseGuard env).sound_of_reachable hbounded h
  rw [activeCount_eq_card, withoutItem, Finset.sdiff_empty]
  exact sound.bounded nodeId policy.maxConcurrent (by simp [Db.limit, hpolicy])

section Sample

/-- One online node without leases. -/
def sampleSlots : Db := { Db.initial with workers := sampleWorkers 0 }

def sampleDraw : ChallengeDraw := ⟨.fromU128 500, 0, none, "payload", 10, 10⟩

/-- Two claims at once: the second waits for the lock of the first, which takes the
only slot. -/
def sampleClaims : List (Move Int Statement Bool) :=
  [.start false, .start true,
    .issue false (.lockForClaim sampleWorker ⟨.fromU128 20, .fromU128 21⟩), .grant false,
    .issue true (.lockForClaim sampleWorker ⟨.fromU128 20, .fromU128 21⟩),
    .issue false .enforceClaim, .grant false,
    .issue false (.leaseHidden sampleWorker sampleDraw), .grant false, .commit false,
    .grant true, .issue true .enforceClaim]

theorem unexpired_leases_bounded_sample :
    ∃ (sys : System Int Db SlotRow Uuid Stage Statement Bool) (policy : NodePolicyRow),
      ReadCommitted.Reachable (admission sampleServices) LeavesLeases DrawsApart 0 sampleSlots sys ∧
      policy.maxConcurrent = 1 ∧
      activeCount sys.committed.jobs.rows sys.committed.workers.challenges.rows (.fromU128 20)
        sys.clock none = 1 ∧
      activeCount sys.committed.jobs.rows sys.committed.workers.challenges.rows (.fromU128 20)
        sys.clock none ≤ policy.maxConcurrent := by
  have hran : (sampleClaims.foldlM (play (admission sampleServices) DrawsApart)
      ⟨0, sampleSlots, fun _ => none⟩).any (fun sys =>
        decide (activeCount sys.committed.jobs.rows sys.committed.workers.challenges.rows
          (.fromU128 20) sys.clock none = 1 ∧ sys.committed.limit (.fromU128 20) = some 1)) =
        true := by
    decide +kernel
  obtain ⟨sys, hsys, hfinal⟩ := (Option.any_eq_true _ _).mp hran
  obtain ⟨hcount, hlimit⟩ := of_decide_eq_true hfinal
  obtain ⟨policy, hpolicy, hmax⟩ := Option.map_eq_some_iff.mp hlimit
  have hreachable : ReadCommitted.Reachable (admission sampleServices) LeavesLeases DrawsApart 0
      sampleSlots sys := .playAll .init hsys
  refine ⟨sys, policy, hreachable, hmax, hcount,
    unexpired_leases_bounded sampleServices (fun nodeId policy _ => ?_) hreachable hpolicy⟩
  exact Nat.zero_le _

end Sample

end MindOne.Coordinator

import MindOne.Coordinator.Concurrency

/-!
# What a regulated node is committed to

Leases, pinned jobs and prepared routes share the slots of a regulated node. The
check of `prepare_regulated_job` and `create_regulated_job` counts them in the very
statement that waits for the lock, so that it may count rows older than the lock; and
a hidden challenge is claimed without counting pinned jobs and prepared routes. Where
neither happens, no node is committed to more than it can run.
-/

namespace MindOne.Coordinator

open CheckedArithmetic KeyedTable ReadCommitted

/-- Claims, preparations and creations, but no renewals. -/
def AdmissionsOnly (_ _ : Int) (stmt : Statement) (_ : Stage) (_ _ : Db) : Prop :=
  stmt.startsRenewal = false

instance (began now : Int) (stmt : Statement) (stage : Stage) (snapshot current : Db) :
    Decidable (AdmissionsOnly began now stmt stage snapshot current) :=
  inferInstanceAs (Decidable (stmt.startsRenewal = false))

/-- A check that finds a free slot in its snapshot would find one in the rows as they
are once it has its lock, and a hidden challenge is only claimed into a slot that
no pinned job and no prepared route needs. -/
def HasRoom (began now : Int) (stmt : Statement) (stage : Stage) (snapshot current : Db) : Prop :=
  match stmt, stage with
  | .checkNode nodeId _ _, _ => ∀ m ∈ current.limit nodeId,
      (snapshot.at began).reservedCount nodeId none < m →
        (current.at now).reservedCount nodeId none < m
  | .checkRoute _, .routeLocked route => ∀ m ∈ current.limit route.nodeId,
      (snapshot.at began).reservedCount route.nodeId (some route.id) < m →
        (current.at now).reservedCount route.nodeId (some route.id) < m
  | .leaseHidden _ _, .claimChecked locked _ => ∀ m ∈ current.limit locked.node.id,
      (current.at now).reservedCount locked.node.id none < m
  | _, _ => True

instance (began now : Int) (stmt : Statement) (stage : Stage) (snapshot current : Db) :
    Decidable (HasRoom began now stmt stage snapshot current) := by
  delta HasRoom
  split <;> infer_instance

/-- Anything else that happens adds no commitment to any node and keeps the limits. -/
def LeavesCommitments (before after : Db) : Prop :=
  ∀ nodeId, commitments.Shrinks nodeId after before

/-- What a step has to find out where a slot is given away. -/
def Stage.Given (now : Int) (current : Db) : Stage → Stage → Prop
  | .opened, .renewLocked _ _ => False
  | .opened, .routeFree nodeId => ∀ m ∈ current.limit nodeId,
      (current.at now).reservedCount nodeId none < m
  | .routeLocked _, .routeChecked route => ∀ m ∈ current.limit route.nodeId,
      (current.at now).reservedCount route.nodeId (some route.id) < m
  | .claimChecked locked _, .finished _ => ∀ m ∈ current.limit locked.node.id,
      (current.at now).reservedCount locked.node.id none < m
  | _, _ => True

section Given
variable {env : Services} {began now : Int} {snapshot current : Db} {stmt : Statement}
  {rows : List SlotRow}

theorem given_of_opened {stage' : Stage} (hstarts : stmt.startsRenewal = false)
    (hroom : HasRoom began now stmt .opened snapshot current)
    (h : runStatement env began snapshot current stmt .opened = .ok (stage', rows)) :
    Stage.Given now current .opened stage' := by
  cases stmt with
  | lockForClaim principal request =>
      simp only [runStatement, lockForClaim, bind_eq_ok] at h
      obtain ⟨_, -, _, -, _, -, hstage⟩ := h
      cases hstage
      trivial
  | lockForRenewal principal jobId nodeId => cases hstarts
  | checkNode nodeId tags nowUtc =>
      simp only [runStatement, checkNode, bind_eq_ok] at h
      obtain ⟨capacity, hcapacity, hstage⟩ := h
      cases capacity with
      | false =>
          cases hstage
          trivial
      | true =>
          cases hstage
          obtain ⟨m, hlimit, hsnapshot⟩ := checkReservedCapacityAndPolicy_ok hcapacity
          intro m' hm'
          have hsame := hlimit.symm.trans hm'
          cases hsame
          exact hroom m hlimit hsnapshot
  | selectRoute principal routeId nowUtc =>
      have heffect : Effect began snapshot current .opened stage' rows ∧ stage'.node = none :=
        selectRoute_effect h
      have hnode := heffect.2
      cases stage' with
      | renewLocked locked jobId => cases hnode
      | routeFree nodeId => cases hnode
      | _ => trivial
  | _ => simp [runStatement] at h

theorem given_of_run {stage stage' : Stage} (hstarts : stmt.startsRenewal = false)
    (hroom : HasRoom began now stmt stage snapshot current)
    (h : runStatement env began snapshot current stmt stage = .ok (stage', rows)) :
    Stage.Given now current stage stage' := by
  cases stage with
  | opened => exact given_of_opened hstarts hroom h
  | routeLocked route =>
      cases stmt with
      | checkRoute nowUtc =>
          simp only [runStatement, checkRoute, bind_eq_ok, rejectIf_eq_ok, exists_const,
            Bool.not_eq_false] at h
          obtain ⟨capacity, hcapacity, rfl, hstage⟩ := h
          cases hstage
          obtain ⟨m, hlimit, hsnapshot⟩ := checkReservedCapacityAndPolicy_ok hcapacity
          intro m' hm'
          have hsame := hlimit.symm.trans hm'
          cases hsame
          exact hroom m hlimit hsnapshot
      | _ => simp [runStatement] at h
  | claimChecked locked mi =>
      cases stmt with
      | leaseHidden principal draw =>
          cases stage' with
          | finished nodeId => exact hroom
          | _ => trivial
      | expireStale lockedRows =>
          simp only [runStatement, bind_eq_ok] at h
          obtain ⟨_, -, hstage⟩ := h
          cases hstage
          trivial
      | selectCandidate lockedRows =>
          simp only [runStatement, selectCandidate, bind_eq_ok] at h
          obtain ⟨_, -, _, -, hstage⟩ := h
          cases hstage
          trivial
      | _ => simp [runStatement] at h
  | _ => trivial

end Given

/-- What a transaction knows about the commitments of the node that it has locked. -/
def Stage.KnowsRoom (now : Int) (db : Db) : Stage → Prop
  | .claimLocked locked _ => db.limit locked.node.id = some locked.policy.maxConcurrent
  | .claimChecked locked _ =>
      db.limit locked.node.id = some locked.policy.maxConcurrent ∧ 0 < locked.policy.maxConcurrent
  | .claimOffered locked _ job | .claimAdmitted locked _ job =>
      db.limit locked.node.id = some locked.policy.maxConcurrent ∧
        (commitments.held db locked.node.id now \ {.job job.id}).card < locked.policy.maxConcurrent
  | .routeFree nodeId => ∃ m, db.limit nodeId = some m ∧ (commitments.held db nodeId now).card < m
  | .routeChecked route => ∃ m, db.limit route.nodeId = some m ∧
      (commitments.held db route.nodeId now \ {.route route.id}).card < m
  | .routeUsed route _ => ∃ m, db.limit route.nodeId = some m ∧
      (commitments.held db route.nodeId now \ {.route route.id}).card ≤ m
  | .renewLocked _ _ | .renewLeased _ _ | .renewChecked _ _ | .renewExtended _ _ => False
  | .opened | .routeLocked _ | .finished _ => True

/-- The node for which a job is inserted while its route is still prepared. -/
def Stage.using : Stage → Option Uuid
  | .routeUsed route _ => some route.nodeId
  | _ => none

/-- Unless a route awaits its use, the node is within its bound. -/
structure Stage.RoomKnown (nodeId : Uuid) (stage : Stage) (_ now : Int) (db : Db) : Prop where
  bounded : stage.using ≠ some nodeId → commitments.Bounded nodeId now db
  known : stage.node = some nodeId → stage.KnowsRoom now db

section Knowledge
variable {nodeId : Uuid} {stage stage' : Stage} {began now now' : Int}
  {db after before snapshot current : Db} {rows : List SlotRow}

theorem Stage.MayCommit.using {stage : Stage} (h : stage.MayCommit) : stage.using = none := by
  cases stage with
  | routeUsed route jobId => exact h.elim
  | _ => rfl

theorem Stage.MayCommit.not_using {stage : Stage} (h : stage.MayCommit) :
    stage.using ≠ some nodeId := by
  rw [h.using]
  intro hnone
  cases hnone

theorem card_sdiff_mono {without : Finset SlotKey} (h : commitments.Shrinks nodeId after before) :
    (commitments.held after nodeId now \ without).card ≤
      (commitments.held before nodeId now \ without).card :=
  Finset.card_le_card (Finset.sdiff_subset_sdiff (h.2 now) subset_rfl)

theorem card_sdiff_later {without : Finset SlotKey} (h : now ≤ now') :
    (commitments.held db nodeId now' \ without).card ≤
      (commitments.held db nodeId now \ without).card :=
  Finset.card_le_card (Finset.sdiff_subset_sdiff (Occupancy.held_earlier h) subset_rfl)

/-- Fewer rows in another state or at a later instant leave the same knowledge. -/
theorem Stage.KnowsRoom.fewer
    (hlimit : ∀ locked, stage.node = some locked → after.limit locked = before.limit locked)
    (hcard : ∀ locked without, stage.node = some locked →
      (commitments.held after locked now' \ without).card ≤
        (commitments.held before locked now \ without).card)
    (known : stage.KnowsRoom now before) : stage.KnowsRoom now' after := by
  cases stage with
  | claimLocked locked _ => exact (hlimit _ rfl).trans known
  | claimChecked locked _ => exact ⟨(hlimit _ rfl).trans known.1, known.2⟩
  | claimOffered locked _ job | claimAdmitted locked _ job =>
      exact ⟨(hlimit _ rfl).trans known.1, (hcard _ _ rfl).trans_lt known.2⟩
  | routeFree nodeId =>
      obtain ⟨m, limit, room⟩ := known
      have hle := hcard _ ∅ rfl
      rw [Finset.sdiff_empty, Finset.sdiff_empty] at hle
      exact ⟨m, (hlimit _ rfl).trans limit, hle.trans_lt room⟩
  | routeChecked route =>
      obtain ⟨m, limit, room⟩ := known
      exact ⟨m, (hlimit _ rfl).trans limit, (hcard _ _ rfl).trans_lt room⟩
  | routeUsed route _ =>
      obtain ⟨m, limit, room⟩ := known
      exact ⟨m, (hlimit _ rfl).trans limit, (hcard _ _ rfl).trans room⟩
  | renewLocked _ _ | renewLeased _ _ | renewChecked _ _ | renewExtended _ _ => exact known
  | opened | routeLocked _ | finished _ => exact known

theorem Stage.RoomKnown.mono (h : commitments.Shrinks nodeId after before)
    (known : stage.RoomKnown nodeId began now before) :
    stage.RoomKnown nodeId began now after := by
  refine ⟨fun hne => (known.bounded hne).mono h, fun hnode => ?_⟩
  have hlocked : ∀ locked, stage.node = some locked → locked = nodeId :=
    fun locked hl => Option.some.inj (hl.symm.trans hnode)
  refine (known.known hnode).fewer (fun locked hl => ?_) fun locked without hl => ?_
  · rw [hlocked locked hl]
    exact h.1
  · rw [hlocked locked hl]
    exact card_sdiff_mono h

theorem Stage.RoomKnown.later (h : now ≤ now') (known : stage.RoomKnown nodeId began now db) :
    stage.RoomKnown nodeId began now' db :=
  ⟨fun hne => (known.bounded hne).later h,
    fun hnode => (known.known hnode).fewer (fun _ _ => rfl) fun _ _ _ => card_sdiff_later h⟩

/-- One more row fills at most the slot that was free. -/
theorem commitments_bounded_writeSlot {row : SlotRow} {m : Nat}
    (limit : db.limit nodeId = some m)
    (room : (commitments.held db nodeId now \ {row.key}).card < m) :
    commitments.Bounded nodeId now ([row].foldl Db.writeSlot db) := by
  intro m' hm'
  rw [Db.limit_foldl_writeSlot, limit, Option.mem_some_iff] at hm'
  subst hm'
  have hcard : (commitments.held (db.writeSlot row) nodeId now).card ≤
      (commitments.held db nodeId now \ {row.key}).card + 1 := Occupancy.card_held_writeSlot_le
  exact hcard.trans room

theorem card_lt_of_reservedCount {m : Nat} {excluded : Option Uuid}
    (room : (db.at now).reservedCount nodeId excluded < m) :
    (commitments.held db nodeId now \ withoutRoute excluded).card < m := by
  rwa [reservedCount_eq_card] at room

/-- The inserted job takes the slot that its route gives up. -/
theorem routeUsed_card {route : RegulatedRoute} {job : Job} :
    (commitments.held ([SlotRow.job job].foldl Db.writeSlot current) nodeId now \
        {.route route.id}).card ≤
      (commitments.held current nodeId now \ {.route route.id}).card + 1 := by
  refine (Finset.card_le_card fun key hkey => ?_).trans (Finset.card_insert_le (.job job.id) _)
  obtain ⟨hheld, hroute⟩ := Finset.mem_sdiff.mp hkey
  rcases Finset.mem_insert.mp (Occupancy.held_writeSlot (.job job) hheld) with rfl | hold
  · exact Finset.mem_insert_self _ _
  · exact Finset.mem_insert_of_mem (Finset.mem_sdiff.mpr ⟨Finset.sdiff_subset hold, hroute⟩)

theorem Effect.commitments_shrinks (effect : Effect began snapshot current stage stage' rows)
    (hnode : stage'.node ≠ some nodeId) :
    commitments.Shrinks nodeId (rows.foldl Db.writeSlot db) db :=
  Occupancy.shrinks_foldl fun row hrow now => effect.only hnode row hrow now

theorem Effect.roomKnown_elsewhere (effect : Effect began snapshot current stage stage' rows)
    (hnode : stage'.node ≠ some nodeId) (known : stage.RoomKnown nodeId began now current) :
    stage'.RoomKnown nodeId began now (rows.foldl Db.writeSlot current) := by
  have hbefore : stage.node ≠ some nodeId := by
    rcases effect.node with hnone | hsame
    · simp [hnone]
    · exact hsame ▸ hnode
  have husing : stage.using ≠ some nodeId := by
    cases stage with
    | routeUsed route jobId => exact hbefore
    | _ => simp [Stage.using]
  exact ⟨fun _ => (known.bounded husing).mono (effect.commitments_shrinks hnode),
    fun h => absurd h hnode⟩

/-- The steps of a transaction keep what it knows about the node that it has locked. -/
theorem Effect.roomKnown_locked (effect : Effect began snapshot current stage stage' rows)
    (given : Stage.Given now current stage stage') (hlater : began ≤ now)
    (fresh : stage.node = some nodeId → commitments.Shrinks nodeId current snapshot)
    (known : stage.RoomKnown nodeId began now current) (hnode : stage'.node = some nodeId) :
    stage'.RoomKnown nodeId began now (rows.foldl Db.writeSlot current) := by
  cases effect with
  | entered node kind limit =>
      refine ⟨fun _ => known.bounded (by simp [Stage.using]), fun _ => ?_⟩
      rcases kind with ⟨mi, rfl⟩ | ⟨jobId, rfl⟩
      · exact limit
      · exact given.elim
  | ended kind may idle =>
      have hafter := known.mono
        (Occupancy.shrinks_foldl fun row hrow now => idle row hrow nodeId now)
      rcases kind with rfl | ⟨locked, _, rfl⟩
      · exact hafter
      · exact ⟨fun _ => hafter.bounded (by simp [may.using]), fun _ => trivial⟩
  | claimChecked room =>
      cases hnode
      exact ⟨fun _ => known.bounded (by simp [Stage.using]),
        fun _ => ⟨known.known rfl, (Nat.zero_le _).trans_lt room⟩⟩
  | hidden only =>
      cases hnode
      obtain ⟨limit, -⟩ := known.known rfl
      have room := card_lt_of_reservedCount (given _ limit)
      rw [withoutRoute, Finset.sdiff_empty] at room
      exact ⟨fun _ => commitments_bounded_writeSlot limit
        ((Finset.card_le_card Finset.sdiff_subset).trans_lt room), fun _ => trivial⟩
  | offered limit room =>
      cases hnode
      obtain ⟨hlimit, hpos⟩ := known.known rfl
      have hsame := limit.symm.trans ((fresh rfl).1.symm.trans hlimit)
      cases hsame
      refine ⟨fun _ => known.bounded (by simp [Stage.using]), fun _ => ⟨hlimit, ?_⟩⟩
      refine ((card_sdiff_later hlater).trans (card_sdiff_mono (fresh rfl))).trans_lt ?_
      rcases room with hlt | hzero
      · exact hlt
      · rw [hzero]
        exact hpos
  | admitted room =>
      cases hnode
      exact ⟨fun _ => known.bounded (by simp [Stage.using]), fun _ => known.known rfl⟩
  | leased id only =>
      cases hnode
      obtain ⟨limit, room⟩ := known.known rfl
      exact ⟨fun _ => commitments_bounded_writeSlot limit (by rw [SlotRow.key, id]; exact room),
        fun _ => trivial⟩
  | selected found => exact (known.known hnode).elim
  | renewChecked room => exact (known.known hnode).elim
  | extended id only => exact (known.known hnode).elim
  | hiddenExtended found id only => exact (known.known hnode).elim
  | hiddenChecked room => exact (known.known hnode).elim
  | @nodeChecked checked m limit room =>
      cases hnode
      have hroom := card_lt_of_reservedCount (given m limit)
      rw [withoutRoute, Finset.sdiff_empty] at hroom
      exact ⟨fun _ => known.bounded (by simp [Stage.using]), fun _ => ⟨m, limit, hroom⟩⟩
  | prepared only =>
      cases hnode
      obtain ⟨m, limit, room⟩ := known.known rfl
      exact ⟨fun _ => commitments_bounded_writeSlot limit
        ((Finset.card_le_card Finset.sdiff_subset).trans_lt room), fun _ => trivial⟩
  | routeSelected => cases hnode
  | @routeChecked route m limit room =>
      cases hnode
      exact ⟨fun _ => known.bounded (by simp [Stage.using]),
        fun _ => ⟨m, limit, card_lt_of_reservedCount (given m limit)⟩⟩
  | inserted waits only =>
      cases hnode
      obtain ⟨m, limit, room⟩ := known.known rfl
      exact ⟨fun hne => absurd rfl hne,
        fun _ => ⟨m, Db.limit_foldl_writeSlot.trans limit, routeUsed_card.trans room⟩⟩
  | @used route row jobId id idle =>
      cases hnode
      obtain ⟨m, limit, room⟩ := known.known rfl
      refine ⟨fun _ m' hm' => ?_, fun _ => trivial⟩
      have hsame := (Db.limit_foldl_writeSlot.trans limit).symm.trans hm'
      cases hsame
      have hkey : row.id = route.id → (SlotRow.route row).key = .route route.id :=
        congrArg SlotKey.route
      have hsubset := Occupancy.held_writeSlot_of_idle current (idle route.nodeId now)
      rw [hkey id] at hsubset
      exact (Finset.card_le_card hsubset).trans room

theorem Effect.roomKnown (effect : Effect began snapshot current stage stage' rows)
    (given : Stage.Given now current stage stage') (hlater : began ≤ now)
    (fresh : stage.node = some nodeId → commitments.Shrinks nodeId current snapshot)
    (known : stage.RoomKnown nodeId began now current) :
    stage'.RoomKnown nodeId began now (rows.foldl Db.writeSlot current) := by
  by_cases hnode : stage'.node = some nodeId
  · exact effect.roomKnown_locked given hlater fresh known hnode
  · exact effect.roomKnown_elsewhere hnode known

end Knowledge

/-- Admissions that give away free slots only. -/
def GivesFreeSlots (began now : Int) (stmt : Statement) (stage : Stage) (snapshot current : Db) :
    Prop :=
  AdmissionsOnly began now stmt stage snapshot current ∧
    HasRoom began now stmt stage snapshot current

instance (began now : Int) (stmt : Statement) (stage : Stage) (snapshot current : Db) :
    Decidable (GivesFreeSlots began now stmt stage snapshot current) :=
  inferInstanceAs (Decidable (_ ∧ _))

/-- The commitments of every node stay within its limit when no check counts too little. -/
def commitmentGuard (env : Services) :
    Guard (admission env) LeavesCommitments GivesFreeSlots where
  le := commitments.Shrinks
  bounded := commitments.Bounded
  relies stage nodeId := stage.node = some nodeId
  knows := Stage.RoomKnown
  le_refl := .refl
  le_trans := .trans
  apply_mono := .writeSlot
  elsewhere_le h := h _
  bounded_mono := .mono
  bounded_later := .later
  knows_mono := .mono
  knows_later := .later
  relies_opened h := Stage.opened_node_ne h
  commits may known _ := known.bounded (Stage.MayCommit.not_using may)
  relies_execute := admission_node
  shrinks h hrelies _ := (admission_effect h).1.commitments_shrinks hrelies
  learns_held h room hlater fresh known :=
    (admission_effect h).1.roomKnown (given_of_run room.1 room.2 (admission_execute h)) hlater
      (fun _ => fresh) known
  learns_locked h room hlater _ hrelies hbounded :=
    (admission_effect h).1.roomKnown (given_of_run room.1 room.2 (admission_execute h)) hlater
      (fun hnode => absurd hnode hrelies)
      ⟨fun _ => hbounded, fun hnode => absurd hnode hrelies⟩

section Bound
variable {db : Db} {nodeId : Uuid} {now : Int} {m : Nat}

theorem reservedCount_le_iff : (db.at now).reservedCount nodeId none ≤ m ↔
    (commitments.held db nodeId now).card ≤ m := by
  rw [reservedCount_eq_card, withoutRoute, Finset.sdiff_empty]
  rfl

/-- What takes a slot leaves at least that slot to itself. -/
theorem card_sdiff_lt_of_held {key : SlotKey} (hkey : key ∈ commitments.held db nodeId now)
    (hle : (commitments.held db nodeId now).card ≤ m) :
    (commitments.held db nodeId now \ {key}).card < m := by
  have hlt : (commitments.held db nodeId now \ {key}).card <
      (commitments.held db nodeId now).card :=
    Finset.card_lt_card (Finset.sdiff_ssubset (by simpa using hkey) (Finset.singleton_nonempty key))
  omega

end Bound

/-- In every interleaving of claims, preparations and creations in which slots are
only given away while they are free, a node is never committed to more than its limit.
Then every prepared route can be used and every pinned job finds a slot. -/
theorem commitments_bounded (env : Services) {τ : Type} [DecidableEq τ] {clock : Int}
    {initial : Db} {sys : System Int Db SlotRow Uuid Stage Statement τ}
    (hinit : ∀ nodeId policy, initial.workers.nodePolicies.find nodeId = some policy →
      (initial.at clock).reservedCount nodeId none ≤ policy.maxConcurrent)
    (h : ReadCommitted.Reachable (admission env) LeavesCommitments GivesFreeSlots clock initial sys)
    {nodeId : Uuid} {policy : NodePolicyRow}
    (hpolicy : sys.committed.workers.nodePolicies.find nodeId = some policy) :
    (sys.committed.at sys.clock).reservedCount nodeId none ≤ policy.maxConcurrent ∧
    (∀ route ∈ sys.committed.workers.routes.rows, route.Pending nodeId sys.clock →
      (sys.committed.at sys.clock).reservedCount nodeId (some route.id) < policy.maxConcurrent) ∧
    ∀ job ∈ sys.committed.jobs.rows, job.PinnedTo nodeId →
      (sys.committed.at sys.clock).loadCount job nodeId < policy.maxConcurrent := by
  have hbounded : ∀ nodeId, commitments.Bounded nodeId clock initial := by
    intro nodeId m hm
    obtain ⟨policy, hfind, rfl⟩ := Option.map_eq_some_iff.mp hm
    exact reservedCount_le_iff.mp (hinit nodeId policy hfind)
  have sound := (commitmentGuard env).sound_of_reachable hbounded h
  have hle := sound.bounded nodeId policy.maxConcurrent (by simp [Db.limit, hpolicy])
  refine ⟨reservedCount_le_iff.mpr hle, fun route hroute pending => ?_, fun job hjob pinned => ?_⟩
  · have hmem : SlotRow.route route ∈ sys.committed.slots.rows := Db.mem_slots.mpr hroute
    rw [reservedCount_eq_card]
    exact card_sdiff_lt_of_held (Table.mem_keysWhere.mpr
      ⟨_, Table.find_of_mem hmem, commitments_takes_route.mpr pending⟩) hle
  · have hmem : SlotRow.job job ∈ sys.committed.slots.rows := Db.mem_slots.mpr hjob
    rw [loadCount_eq_card]
    exact card_sdiff_lt_of_held (Table.mem_keysWhere.mpr
      ⟨_, Table.find_of_mem hmem, commitments_takes_job.mpr (.inr pinned)⟩) hle

section Sample

/-- One regulated node with one slot. -/
def sampleRegulatedSlots : Db :=
  { Db.initial with workers := { sampleWorkers 0 with
      nodes := Table.empty.set { sampleNode 0 with
        trustLevel := .enhanced
        trustExpiresAt := some 600000000 } } }

def samplePreparedRoute (id : Nat) : RegulatedRoute where
  id := .fromU128 id
  userId := sampleUser
  modelId := .fromU128 1
  modelInstanceId := .fromU128 21
  nodeId := .fromU128 20
  attestationReportId := .fromU128 30
  tags := []
  estimatedInputTokens := 40
  maxOutputTokens := 10
  priority := 0
  status := .prepared
  expiresAt := 300000000
  jobId := none
  createRequestFingerprint := none
  billing := ⟨sampleBillingProfile, 40, 10, 50, 0, 0, 0, 0, 0, 0⟩

/-- One preparation after the other: the second one finds no free slot. -/
def samplePreparations : List (Move Int Statement Bool) :=
  [.start false, .start true,
    .issue false (.checkNode (.fromU128 20) [] 0), .grant false,
    .issue false (.insertRoute (samplePreparedRoute 41)), .grant false, .commit false,
    .issue true (.checkNode (.fromU128 20) [] 0), .grant true]

theorem commitments_bounded_sample :
    ∃ (sys : System Int Db SlotRow Uuid Stage Statement Bool) (policy : NodePolicyRow),
      ReadCommitted.Reachable (admission sampleServices) LeavesCommitments GivesFreeSlots 0
        sampleRegulatedSlots sys ∧
      policy.maxConcurrent = 1 ∧
      (sys.committed.at sys.clock).reservedCount (.fromU128 20) none = 1 ∧
      (sys.committed.at sys.clock).reservedCount (.fromU128 20) none ≤ policy.maxConcurrent := by
  have hran : (samplePreparations.foldlM (play (admission sampleServices) GivesFreeSlots)
      ⟨0, sampleRegulatedSlots, fun _ => none⟩).any (fun sys =>
        decide ((sys.committed.at sys.clock).reservedCount (.fromU128 20) none = 1 ∧
          sys.committed.limit (.fromU128 20) = some 1)) = true := by
    decide +kernel
  obtain ⟨sys, hsys, hfinal⟩ := (Option.any_eq_true _ _).mp hran
  obtain ⟨hcount, hlimit⟩ := of_decide_eq_true hfinal
  obtain ⟨policy, hpolicy, hmax⟩ := Option.map_eq_some_iff.mp hlimit
  have hreachable : ReadCommitted.Reachable (admission sampleServices) LeavesCommitments
      GivesFreeSlots 0 sampleRegulatedSlots sys := .playAll .init hsys
  refine ⟨sys, policy, hreachable, hmax, hcount,
    (commitments_bounded sampleServices (fun nodeId policy _ => ?_) hreachable hpolicy).1⟩
  exact Nat.zero_le _

/-- Both preparations issue their check before the first one commits. The second waits
for the lock and then counts the rows of its older snapshot. -/
def samplePromises : List (Move Int Statement Bool) :=
  [.start false, .start true,
    .issue false (.checkNode (.fromU128 20) [] 0), .issue true (.checkNode (.fromU128 20) [] 0),
    .grant false, .issue false (.insertRoute (samplePreparedRoute 41)), .grant false,
    .commit false,
    .grant true, .issue true (.insertRoute (samplePreparedRoute 42)), .grant true, .commit true]

/-- Two prepared routes for one slot. -/
theorem commitments_bounded_fails :
    ¬ ∀ (sys : System Int Db SlotRow Uuid Stage Statement Bool),
      ReadCommitted.Reachable (admission sampleServices) LeavesCommitments AdmissionsOnly 0
        sampleRegulatedSlots sys →
      ∀ nodeId policy, sys.committed.workers.nodePolicies.find nodeId = some policy →
        (sys.committed.at sys.clock).reservedCount nodeId none ≤ policy.maxConcurrent := by
  intro hclaim
  have hran : (samplePromises.foldlM (play (admission sampleServices) AdmissionsOnly)
      ⟨0, sampleRegulatedSlots, fun _ => none⟩).any (fun sys =>
        decide ((sys.committed.at sys.clock).reservedCount (.fromU128 20) none = 2 ∧
          sys.committed.limit (.fromU128 20) = some 1)) = true := by
    decide +kernel
  obtain ⟨sys, hsys, hfinal⟩ := (Option.any_eq_true _ _).mp hran
  obtain ⟨hcount, hlimit⟩ := of_decide_eq_true hfinal
  obtain ⟨policy, hpolicy, hmax⟩ := Option.map_eq_some_iff.mp hlimit
  have hle := hclaim sys (.playAll .init hsys) _ policy hpolicy
  omega

end Sample

end MindOne.Coordinator

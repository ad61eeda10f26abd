import MindOne.Coordinator.Leases

/-!
# The slots of a node

Leases of jobs, leases of hidden work, waiting jobs that are pinned to a node and
prepared routes live in three tables. Here they are rows of one table, and each
count of the coordinator is the size of a set of keys.
-/

namespace MindOne.Coordinator

open KeyedTable

/-- A row that may take a slot of a node. -/
inductive SlotRow where
  | job (row : Job)
  | challenge (row : EvaluationChallenge)
  | route (row : RegulatedRoute)

inductive SlotKey where
  | job (id : Uuid)
  | challenge (id : Uuid)
  | route (id : Uuid)
  deriving DecidableEq

def SlotRow.key : SlotRow → SlotKey
  | .job row => .job row.id
  | .challenge row => .challenge row.id
  | .route row => .route row.id

/-- A regulated job that waits for the node it is pinned to. -/
def Job.PinnedTo (job : Job) (nodeId : Uuid) : Prop :=
  job.confidentialityMode = .regulated ∧ job.regulatedNodeId = some nodeId ∧
    (job.status = .queued ∨ job.status = .retry)

instance (job : Job) (nodeId : Uuid) : Decidable (job.PinnedTo nodeId) :=
  inferInstanceAs (Decidable (_ ∧ _))

/-- A prepared route that has neither been used nor expired. -/
def RegulatedRoute.Pending (route : RegulatedRoute) (nodeId : Uuid) (now : Int) : Prop :=
  route.nodeId = nodeId ∧ route.status = .prepared ∧ now < route.expiresAt

instance (route : RegulatedRoute) (nodeId : Uuid) (now : Int) :
    Decidable (route.Pending nodeId now) := inferInstanceAs (Decidable (_ ∧ _))

theorem Job.LeasedBy.earlier {job : Job} {nodeId : Uuid} {now now' : Int} (h : now ≤ now')
    (leased : job.LeasedBy nodeId now') : job.LeasedBy nodeId now := by
  obtain ⟨hnode, hstatus, expiry, hexpiry, hvalid⟩ := leased
  exact ⟨hnode, hstatus, expiry, hexpiry, by omega⟩

theorem EvaluationChallenge.LeasedBy.earlier {challenge : EvaluationChallenge} {nodeId : Uuid}
    {now now' : Int} (h : now ≤ now') (leased : challenge.LeasedBy nodeId now') :
    challenge.LeasedBy nodeId now := by
  obtain ⟨hnode, hstatus, hvalid⟩ := leased
  exact ⟨hnode, hstatus, by omega⟩

theorem RegulatedRoute.Pending.earlier {route : RegulatedRoute} {nodeId : Uuid} {now now' : Int}
    (h : now ≤ now') (pending : route.Pending nodeId now') : route.Pending nodeId now := by
  obtain ⟨hnode, hstatus, hvalid⟩ := pending
  exact ⟨hnode, hstatus, by omega⟩

namespace Db

/-- The rows that may take a slot, with their keys. -/
def slots (db : Db) : Table SlotRow.key where
  rows := db.jobs.rows.map .job ++ (db.workers.challenges.rows.map .challenge ++
    db.workers.routes.rows.map .route)
  nodup := by
    have hjobs : ((db.jobs.rows.map SlotRow.job).map SlotRow.key) =
        (db.jobs.rows.map Job.id).map SlotKey.job := by simp [SlotRow.key, Function.comp_def]
    have hchallenges : ((db.workers.challenges.rows.map SlotRow.challenge).map SlotRow.key) =
        (db.workers.challenges.rows.map EvaluationChallenge.id).map SlotKey.challenge := by
      simp [SlotRow.key, Function.comp_def]
    have hroutes : ((db.workers.routes.rows.map SlotRow.route).map SlotRow.key) =
        (db.workers.routes.rows.map RegulatedRoute.id).map SlotKey.route := by
      simp [SlotRow.key, Function.comp_def]
    rw [List.map_append, List.map_append, hjobs, hchallenges, hroutes, List.nodup_append,
      List.nodup_append]
    refine ⟨db.jobs.nodup.map fun a b h => by cases h; rfl,
      ⟨db.workers.challenges.nodup.map fun a b h => by cases h; rfl,
        db.workers.routes.nodup.map fun a b h => by cases h; rfl, ?_⟩, ?_⟩
    · simp
    · rintro a ha b hb rfl
      obtain ⟨id, -, rfl⟩ := List.mem_map.mp ha
      simp at hb

theorem mem_slots {db : Db} {row : SlotRow} : row ∈ db.slots.rows ↔
    match row with
    | .job row => row ∈ db.jobs.rows
    | .challenge row => row ∈ db.workers.challenges.rows
    | .route row => row ∈ db.workers.routes.rows := by
  cases row <;> simp [slots]

def writeSlot (db : Db) : SlotRow → Db
  | .job row => db.putJob row
  | .challenge row =>
      { db with workers := { db.workers with challenges := db.workers.challenges.set row } }
  | .route row => { db with workers := { db.workers with routes := db.workers.routes.set row } }

theorem mem_slots_writeSlot {db : Db} {row other : SlotRow} :
    other ∈ (db.writeSlot row).slots.rows ↔
      other = row ∨ (other ∈ db.slots.rows ∧ other.key ≠ row.key) := by
  cases row <;> cases other <;>
    simp [mem_slots, writeSlot, putJob, Table.mem_set, SlotRow.key]

theorem find_slots_writeSlot {db : Db} {row found : SlotRow} {key : SlotKey}
    (h : (db.writeSlot row).slots.find key = some found) :
    (key = row.key ∧ found = row) ∨ (key ≠ row.key ∧ db.slots.find key = some found) := by
  obtain ⟨hmem, hkey⟩ := Table.find_eq_some.mp h
  rcases mem_slots_writeSlot.mp hmem with rfl | ⟨hold, hne⟩
  · exact .inl ⟨hkey.symm, rfl⟩
  · exact .inr ⟨hkey ▸ hne, Table.find_eq_some.mpr ⟨hold, hkey⟩⟩

/-- The number of leases that the policy of a node allows at once. -/
def limit (db : Db) (nodeId : Uuid) : Option Nat :=
  (db.workers.nodePolicies.find nodeId).map NodePolicyRow.maxConcurrent

@[simp] theorem limit_writeSlot {db : Db} {row : SlotRow} {nodeId : Uuid} :
    (db.writeSlot row).limit nodeId = db.limit nodeId := by
  cases row <;> rfl

@[simp] theorem limit_foldl_writeSlot {db : Db} {rows : List SlotRow} {nodeId : Uuid} :
    (rows.foldl writeSlot db).limit nodeId = db.limit nodeId := by
  induction rows generalizing db with
  | nil => rfl
  | cons row rows ih => rw [List.foldl_cons, ih, limit_writeSlot]

end Db

/-- A rule that says which rows take a slot of which node at an instant. A row that
takes one later takes it already. -/
structure Occupancy where
  takes : Uuid → Int → SlotRow → Bool
  earlier {nodeId : Uuid} {now now' : Int} {row : SlotRow} : now ≤ now' →
    takes nodeId now' row = true → takes nodeId now row = true

/-- Unexpired leases, of jobs and of hidden work. -/
def leases : Occupancy where
  takes nodeId now
    | .job row => decide (row.LeasedBy nodeId now)
    | .challenge row => decide (row.LeasedBy nodeId now)
    | .route _ => false
  earlier {_ _ _ row} h taken := by
    cases row <;> simp only [decide_eq_true_eq] at taken ⊢
    · exact taken.earlier h
    · exact taken.earlier h
    · cases taken

/-- What a regulated node is committed to: its leases, the jobs pinned to it, and the
routes prepared for it. -/
def commitments : Occupancy where
  takes nodeId now
    | .job row => decide (row.LeasedBy nodeId now ∨ row.PinnedTo nodeId)
    | .challenge row => decide (row.LeasedBy nodeId now)
    | .route row => decide (row.Pending nodeId now)
  earlier {_ _ _ row} h taken := by
    cases row <;> simp only [decide_eq_true_eq] at taken ⊢
    · exact taken.imp_left (Job.LeasedBy.earlier h)
    · exact taken.earlier h
    · exact taken.earlier h

/-- A lease is a commitment. -/
theorem leases_takes {nodeId : Uuid} {now : Int} {row : SlotRow}
    (h : leases.takes nodeId now row = true) : commitments.takes nodeId now row = true := by
  cases row with
  | job row =>
      have hleased : row.LeasedBy nodeId now := of_decide_eq_true h
      exact decide_eq_true (.inl hleased)
  | challenge row => exact h
  | route row => cases h

namespace Occupancy
variable (o : Occupancy)

/-- The keys of the rows that take a slot of the node. -/
def held (db : Db) (nodeId : Uuid) (now : Int) : Finset SlotKey :=
  db.slots.keysWhere (o.takes nodeId now)

/-- The node has as many slots as it needs. -/
def Bounded (nodeId : Uuid) (now : Int) (db : Db) : Prop :=
  ∀ m ∈ db.limit nodeId, (o.held db nodeId now).card ≤ m

/-- The node holds no more than before, at any instant, under the same limit. -/
def Shrinks (nodeId : Uuid) (after before : Db) : Prop :=
  after.limit nodeId = before.limit nodeId ∧
    ∀ now, o.held after nodeId now ⊆ o.held before nodeId now

variable {o} {db after before : Db} {nodeId : Uuid} {now now' : Int} {row : SlotRow}

theorem Shrinks.refl : o.Shrinks nodeId db db := ⟨rfl, fun _ => Finset.Subset.refl _⟩

theorem Shrinks.trans {last : Db} (h : o.Shrinks nodeId last after)
    (h' : o.Shrinks nodeId after before) : o.Shrinks nodeId last before :=
  ⟨h.1.trans h'.1, fun now => (h.2 now).trans (h'.2 now)⟩

theorem held_earlier (h : now ≤ now') : o.held db nodeId now' ⊆ o.held db nodeId now := by
  intro key hkey
  obtain ⟨row, hrow, htakes⟩ := Table.mem_keysWhere.mp hkey
  exact Table.mem_keysWhere.mpr ⟨row, hrow, o.earlier h htakes⟩

theorem Bounded.later (h : now ≤ now') (bounded : o.Bounded nodeId now db) :
    o.Bounded nodeId now' db :=
  fun m hm => (Finset.card_le_card (held_earlier h)).trans (bounded m hm)

theorem Bounded.mono (h : o.Shrinks nodeId after before) (bounded : o.Bounded nodeId now before) :
    o.Bounded nodeId now after :=
  fun m hm => (Finset.card_le_card (h.2 now)).trans (bounded m (h.1 ▸ hm))

/-- A written row counts at most for itself. -/
theorem held_writeSlot (row : SlotRow) : o.held (db.writeSlot row) nodeId now ⊆
    insert row.key (o.held db nodeId now \ {row.key}) := by
  intro key hkey
  obtain ⟨found, hfound, htakes⟩ := Table.mem_keysWhere.mp hkey
  rcases Db.find_slots_writeSlot hfound with ⟨rfl, rfl⟩ | ⟨hne, hold⟩
  · exact Finset.mem_insert_self _ _
  · exact Finset.mem_insert_of_mem (Finset.mem_sdiff.mpr
      ⟨Table.mem_keysWhere.mpr ⟨found, hold, htakes⟩, by simpa using hne⟩)

/-- A written row that takes no slot leaves none under its key. -/
theorem held_writeSlot_of_idle (db : Db) (h : o.takes nodeId now row = false) :
    o.held (db.writeSlot row) nodeId now ⊆ o.held db nodeId now \ {row.key} := by
  intro key hkey
  obtain ⟨found, hfound, htakes⟩ := Table.mem_keysWhere.mp hkey
  rcases Db.find_slots_writeSlot hfound with ⟨rfl, rfl⟩ | ⟨hne, hold⟩
  · rw [h] at htakes
    cases htakes
  · exact Finset.mem_sdiff.mpr
      ⟨Table.mem_keysWhere.mpr ⟨found, hold, htakes⟩, by simpa using hne⟩

theorem card_held_writeSlot_le : (o.held (db.writeSlot row) nodeId now).card ≤
    (o.held db nodeId now \ {row.key}).card + 1 :=
  (Finset.card_le_card (held_writeSlot row)).trans (Finset.card_insert_le _ _)

/-- Rows that take no slot of the node make nothing larger there. -/
theorem shrinks_foldl {rows : List SlotRow}
    (h : ∀ row ∈ rows, ∀ now, o.takes nodeId now row = false) :
    o.Shrinks nodeId (rows.foldl Db.writeSlot db) db := by
  induction rows generalizing db with
  | nil => exact Shrinks.refl
  | cons row rows ih =>
      have hrow : o.Shrinks nodeId (db.writeSlot row) db :=
        ⟨Db.limit_writeSlot, fun now => (held_writeSlot_of_idle db (h row (by simp) now)).trans
          Finset.sdiff_subset⟩
      exact (ih fun other hother => h other (by simp [hother])).trans hrow

/-- Writing the same row keeps the order. -/
theorem Shrinks.writeSlot (h : o.Shrinks nodeId after before) :
    o.Shrinks nodeId (after.writeSlot row) (before.writeSlot row) := by
  refine ⟨by simpa using h.1, fun now key hkey => ?_⟩
  obtain ⟨found, hfound, htakes⟩ := Table.mem_keysWhere.mp hkey
  have hmem := Table.find_eq_some.mp hfound
  rcases Db.mem_slots_writeSlot.mp hmem.1 with rfl | ⟨hold, hne⟩
  · exact Table.mem_keysWhere.mpr ⟨found, Table.find_eq_some.mpr
      ⟨Db.mem_slots_writeSlot.mpr (.inl rfl), hmem.2⟩, htakes⟩
  · have hheld : key ∈ o.held after nodeId now :=
      Table.mem_keysWhere.mpr ⟨found, Table.find_eq_some.mpr ⟨hold, hmem.2⟩, htakes⟩
    obtain ⟨other, hother, htakes'⟩ := Table.mem_keysWhere.mp (h.2 now hheld)
    obtain ⟨hother, hkey'⟩ := Table.find_eq_some.mp hother
    refine Table.mem_keysWhere.mpr ⟨other, Table.find_eq_some.mpr
      ⟨Db.mem_slots_writeSlot.mpr (.inr ⟨hother, ?_⟩), hkey'⟩, htakes'⟩
    rw [hkey', ← hmem.2]
    exact hne

end Occupancy

section Counts
variable (db : Db) (nodeId : Uuid)

theorem countP_slots (p : SlotRow → Bool) : db.slots.rows.countP p =
    (db.jobs.rows.countP fun row => p (.job row)) +
      ((db.workers.challenges.rows.countP fun row => p (.challenge row)) +
        db.workers.routes.rows.countP fun row => p (.route row)) := by
  simp only [Db.slots, List.countP_append, List.countP_map, Function.comp_def]

/-- The work item that a renewal does not count, under either of its keys. -/
def withoutItem : Option Uuid → Finset SlotKey
  | none => ∅
  | some id => {.job id, .challenge id}

theorem activeCount_eq_card (now : Int) (excluded : Option Uuid) :
    activeCount db.jobs.rows db.workers.challenges.rows nodeId now excluded =
      (leases.held db nodeId now \ withoutItem excluded).card := by
  rw [Occupancy.held, Table.card_keysWhere_sdiff, countP_slots, activeCount]
  cases excluded with
  | none => simp [leases, withoutItem, SlotRow.key]
  | some id => simp [leases, withoutItem, SlotRow.key, eq_comm]

theorem loadCount_eq_card (job : Job) :
    db.loadCount job nodeId =
      (commitments.held db nodeId db.now \ {.job job.id}).card := by
  rw [Occupancy.held, Table.card_keysWhere_sdiff, countP_slots, Db.loadCount]
  rw [Nat.add_assoc, Nat.add_comm (db.workers.routes.rows.countP _)]
  refine congrArg₂ (· + ·) (List.countP_congr fun row _ => ?_)
    (congrArg₂ (· + ·) (List.countP_congr fun row _ => ?_) (List.countP_congr fun row _ => ?_))
  · simp [commitments, SlotRow.key, Job.PinnedTo, and_comm]
  · simp [commitments, SlotRow.key]
  · simp only [commitments, SlotRow.key, Finset.mem_singleton, reduceCtorEq, not_false_eq_true,
      decide_true, Bool.and_true, decide_eq_true_eq]
    rfl

/-- `reserved_count`: what the node is bound to, apart from one prepared route. -/
def Db.reservedCount (excludedRouteId : Option Uuid) : Nat :=
  (db.jobs.rows.countP fun job => job.LeasedBy nodeId db.now ∨ job.PinnedTo nodeId) +
    (db.workers.routes.rows.countP fun route =>
      route.Pending nodeId db.now ∧ excludedRouteId ≠ some route.id) +
    db.workers.challenges.rows.countP fun challenge => challenge.LeasedBy nodeId db.now

def withoutRoute : Option Uuid → Finset SlotKey
  | none => ∅
  | some id => {.route id}

theorem reservedCount_eq_card (excludedRouteId : Option Uuid) :
    db.reservedCount nodeId excludedRouteId =
      (commitments.held db nodeId db.now \ withoutRoute excludedRouteId).card := by
  rw [Occupancy.held, Table.card_keysWhere_sdiff, countP_slots, Db.reservedCount]
  cases excludedRouteId with
  | none =>
      simp [commitments, withoutRoute, SlotRow.key]
      omega
  | some id =>
      simp [commitments, withoutRoute, SlotRow.key, eq_comm]
      omega

end Counts

end MindOne.Coordinator

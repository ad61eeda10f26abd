import MindOne.Coordinator.Draining

/-!
# Draining ends with the last lease

A transaction that takes a lease away and has already looked at the instance will not
look again. If nobody looks past such a transaction, a lease that stays or a look that
is still to come is left on every draining instance, and when all transactions are over
only the lease can be.
-/

namespace MindOne.Coordinator.Draining

open KeyedTable LabelledRuns

/-- The transaction will look at the instance before it commits. -/
def Stage.WillLook (modelInstanceId : Uuid) : Stage → Prop
  | .released id | .finalizing id => id = modelInstanceId
  | .ready | .found _ | .locked _ | .counted _ _ | .chosen _ _ | .confirmed _ _ | .done => False

/-- `unpublish_model` has counted leases. -/
def Stage.Counts (modelInstanceId : Uuid) : Stage → Prop
  | .counted id activeJobs => id = modelInstanceId ∧ activeJobs ≠ 0
  | .ready | .found _ | .released _ | .finalizing _ | .locked _ | .chosen _ _ | .confirmed _ _
  | .done => False

instance (modelInstanceId : Uuid) : (stage : Stage) → Decidable (stage.WillLook modelInstanceId)
  | .released id | .finalizing id => inferInstanceAs (Decidable (id = modelInstanceId))
  | .ready | .found _ | .locked _ | .counted _ _ | .chosen _ _ | .confirmed _ _ | .done =>
      inferInstanceAs (Decidable False)

instance (modelInstanceId : Uuid) : (stage : Stage) → Decidable (stage.Counts modelInstanceId)
  | .counted id activeJobs => inferInstanceAs (Decidable (id = modelInstanceId ∧ activeJobs ≠ 0))
  | .ready | .found _ | .released _ | .finalizing _ | .locked _ | .chosen _ _ | .confirmed _ _
  | .done => inferInstanceAs (Decidable False)

instance (rows : Rows) (id : WorkId) (modelInstanceId : Uuid) :
    Decidable (rows.Leased id modelInstanceId) :=
  inferInstanceAs (Decidable (∃ work ∈ rows.works.find id, _))

namespace Stage

def released? : Stage → Option Uuid
  | .released id => some id
  | _ => none

def locked? : Stage → Option Uuid
  | .locked id => some id
  | _ => none

def confirmed? : Stage → Option (Work × Uuid)
  | .confirmed work target => some (work, target)
  | _ => none

/-- The row that the transaction has locked last. -/
def work? : Stage → Option Work
  | .found work | .chosen work _ | .confirmed work _ => some work
  | _ => none

/-- The instance that `unpublish_model` holds. -/
def unpublishing? : Stage → Option Uuid
  | .locked id | .counted id _ => some id
  | _ => none

end Stage

section Condition
variable (system : System) (session : Session) (modelInstanceId : Uuid)

/-- The transaction has written that the instance drains, or will. -/
def Session.Drains : Prop :=
  session.stage.Counts modelInstanceId ∨ ⟨modelInstanceId, .draining⟩ ∈ session.instances

/-- The instance drains, or an open `unpublish_model` makes it drain. -/
def Watched : Prop :=
  system.committed.status modelInstanceId = some .draining ∨
    ∃ session ∈ system.sessions.rows, session.Drains modelInstanceId

/-- The transaction leaves the lease alone, will look at the instance, or has unpublished it. -/
def Session.Keeps (committed : Rows) (id : WorkId) : Prop :=
  (session.view committed).Leased id modelInstanceId ∨ session.stage.WillLook modelInstanceId ∨
    ⟨modelInstanceId, .unpublished⟩ ∈ session.instances

/-- The transaction sees a lease on the instance, not one of those excepted, that everybody
else keeps. -/
def SeesLease (excepted : List WorkId) : Prop :=
  ∃ work ∈ system.committed.leases modelInstanceId, work.id ∉ excepted ∧
    (session.view system.committed).Leased work.id modelInstanceId ∧
    ∀ other ∈ system.sessions.rows, other.id ≠ session.id →
      other.Keeps modelInstanceId system.committed work.id

instance : Decidable (session.Drains modelInstanceId) := inferInstanceAs (Decidable (_ ∨ _))

instance : Decidable (Watched system modelInstanceId) :=
  inferInstanceAs (Decidable (_ ∨ ∃ session ∈ system.sessions.rows, _))

instance (committed : Rows) (id : WorkId) :
    Decidable (session.Keeps modelInstanceId committed id) :=
  inferInstanceAs (Decidable (_ ∨ _ ∨ _))

instance (excepted : List WorkId) :
    Decidable (SeesLease system session modelInstanceId excepted) :=
  inferInstanceAs (Decidable (∃ work ∈ system.committed.leases modelInstanceId, _))

/-- Nobody looks past a lease that is about to go: of an instance that drains, the last look
sees a lease that stays or finds it drained, `unpublish_model` counts no lease that is
about to go, and a claim does not take the last one elsewhere. -/
def LooksWell : Statement → Prop
  | .finalize =>
      ∀ id ∈ session.stage.released?, Watched system id →
        (session.view system.committed).status id = some .draining ∧
          (session.view system.committed).leases id = [] ∨
        SeesLease system session id []
  | .countLeases =>
      ∀ id ∈ session.stage.locked?, (session.view system.committed).leases id ≠ [] →
        SeesLease system session id []
  | .writeLease _ =>
      ∀ claim ∈ session.stage.confirmed?, ∀ id ∈ claim.1.modelInstanceId,
        claim.1.status = .leased → id ≠ claim.2 → Watched system id →
          SeesLease system session id [claim.1.id]
  | .lockWork _ | .endWork _ | .renewLease _ | .sweep _ | .finalized | .lockInstance _
  | .setStatus | .publish _ | .chooseJob _ _ | .shareInstance | .leaseChallenge _ _ _ => True

instance : (statement : Statement) → Decidable (LooksWell system session statement)
  | .finalize => inferInstanceAs (Decidable (∀ id ∈ session.stage.released?, _ → _))
  | .countLeases => inferInstanceAs (Decidable (∀ id ∈ session.stage.locked?, _ → _))
  | .writeLease _ => inferInstanceAs (Decidable (∀ claim ∈ session.stage.confirmed?,
      ∀ id ∈ claim.1.modelInstanceId, _ → _ → _ → _))
  | .lockWork _ | .endWork _ | .renewLease _ | .sweep _ | .finalized | .lockInstance _
  | .setStatus | .publish _ | .chooseJob _ _ | .shareInstance | .leaseChallenge _ _ _ =>
      inferInstanceAs (Decidable True)

/-- The condition on the steps of a run. -/
def Attentive : List Event → System → Event → Prop
  | _, system, .statement t statement =>
      ∀ session ∈ system.sessions.find t, LooksWell system session statement
  | _, _, .tick _ | _, _, .begin _ | _, _, .commit _ | _, _, .rollback _ => True

instance (past : List Event) (event : Event) : Decidable (Attentive past system event) :=
  match event with
  | .statement t _ => inferInstanceAs (Decidable (∀ session ∈ system.sessions.find t, _))
  | .tick _ | .begin _ | .commit _ | .rollback _ => inferInstanceAs (Decidable True)

end Condition

section Views
variable {session : Session} {committed : Rows} {id : WorkId} {modelInstanceId : Uuid}

theorem mem_leases {rows : Rows} {work : Work} : work ∈ rows.leases modelInstanceId ↔
    rows.works.find work.id = some work ∧ work.LeasedOn modelInstanceId := by
  rw [Rows.leases, List.mem_filter, decide_eq_true_eq, Table.find_eq_some]
  exact ⟨fun h => ⟨⟨h.1, rfl⟩, h.2⟩, fun h => ⟨h.1.1, h.2⟩⟩

theorem leased_of_mem_leases {rows : Rows} {work : Work} (h : work ∈ rows.leases modelInstanceId) :
    rows.Leased work.id modelInstanceId :=
  ⟨work, (mem_leases.mp h).1, (mem_leases.mp h).2⟩

theorem find_view : (session.view committed).works.find id =
    (session.works.find? fun work => work.id = id).or (committed.works.find id) :=
  Table.find_setAll

theorem status_view : (session.view committed).status modelInstanceId =
    ((session.instances.find? fun row => row.id = modelInstanceId).or
      (committed.instances.find modelInstanceId)).map InstanceRow.status :=
  congrArg (Option.map InstanceRow.status) Table.find_setAll

/-- A row that the transaction has not written is as committed. -/
theorem find_view_of_unwritten (h : ∀ work ∈ session.works, work.id ≠ id) :
    (session.view committed).works.find id = committed.works.find id := by
  have hnone : (session.works.find? fun work => work.id = id) = none := by
    rw [List.find?_eq_none]
    intro work hmem
    rw [decide_eq_true_eq]
    exact h work hmem
  rw [find_view, hnone, Option.none_or]

theorem status_view_of_unwritten (h : ∀ row ∈ session.instances, row.id ≠ modelInstanceId) :
    (session.view committed).status modelInstanceId = committed.status modelInstanceId := by
  have hnone : (session.instances.find? fun row => row.id = modelInstanceId) = none := by
    rw [List.find?_eq_none]
    intro row hmem
    rw [decide_eq_true_eq]
    exact h row hmem
  rw [status_view, hnone, Option.none_or]
  rfl

end Views

/-- What holds of one open transaction. -/
structure Session.Sound (session : Session) (committed : Rows) : Prop where
  workLocks : ∀ work ∈ session.works, work.id ∈ session.workLocks
  instanceLocks : ∀ row ∈ session.instances, row.id ∈ session.instanceLocks
  unleased : session.stage ≠ .done → ∀ work ∈ session.works, work.status ≠ .leased
  unpublished : session.stage ≠ .done → ∀ row ∈ session.instances, row.status = .unpublished
  single : ∀ row ∈ session.instances, row.status ≠ .unpublished →
    session.works = [] ∧ session.instances = [row]
  unpublishing : ∀ id ∈ session.stage.unpublishing?, id ∈ session.instanceLocks ∧ session.Fresh
  busy : ∀ work ∈ session.stage.work?, work.id ∈ session.workLocks ∧
    (session.view committed).works.find work.id = some work

structure System.Sound (system : System) : Prop where
  sessions : ∀ session ∈ system.sessions.rows, session.Sound system.committed
  workLocks : ∀ a ∈ system.sessions.rows, ∀ b ∈ system.sessions.rows, a.id ≠ b.id →
    ∀ id ∈ a.workLocks, id ∉ b.workLocks
  instanceLocks : ∀ a ∈ system.sessions.rows, ∀ b ∈ system.sessions.rows, a.id ≠ b.id →
    ∀ id ∈ a.instanceLocks, id ∉ b.instanceLocks ∧ id ∉ b.sharedLocks
  kept : ∀ modelInstanceId, Watched system modelInstanceId →
    ∃ id, system.committed.Leased id modelInstanceId ∧
      ∀ session ∈ system.sessions.rows, session.Keeps modelInstanceId system.committed id

section Puts
variable {system : System} {session next : Session}

/-- A statement changes one transaction; its new locks were free. -/
theorem System.Sound.put (hsound : system.Sound) (hmem : session ∈ system.sessions.rows)
    (hid : next.id = session.id) (hnext : next.Sound system.committed)
    (hworks : ∀ id ∈ next.workLocks, id ∈ session.workLocks ∨ WorkFree system session id)
    (hinstances : ∀ id ∈ next.instanceLocks,
      id ∈ session.instanceLocks ∨ InstanceFree system session id)
    (hshared : ∀ id ∈ next.sharedLocks,
      id ∈ session.sharedLocks ∨ InstanceShareable system session id)
    (hkept : ∀ modelInstanceId, Watched (system.put next) modelInstanceId →
      ∃ id, system.committed.Leased id modelInstanceId ∧
        next.Keeps modelInstanceId system.committed id ∧
        ∀ other ∈ system.sessions.rows, other.id ≠ session.id →
          other.Keeps modelInstanceId system.committed id) :
    (system.put next).Sound := by
  have hrows : ∀ other ∈ (system.put next).sessions.rows,
      other = next ∨ other ∈ system.sessions.rows ∧ other.id ≠ session.id := by
    intro other hother
    exact hid ▸ Table.mem_set.mp hother
  refine ⟨?_, ?_, ?_, ?_⟩
  · intro other hother
    rcases hrows other hother with rfl | ⟨hold, -⟩
    · exact hnext
    · exact hsound.sessions other hold
  · intro a ha b hb hne id hida hidb
    rcases hrows a ha with hanext | ⟨haold, hane⟩ <;>
      rcases hrows b hb with hbnext | ⟨hbold, hbne⟩
    · exact hne (hanext ▸ hbnext ▸ rfl)
    · rcases hworks id (hanext ▸ hida) with hold | hfree
      · exact hsound.workLocks session hmem b hbold (Ne.symm hbne) id hold hidb
      · exact hfree b hbold hbne hidb
    · rcases hworks id (hbnext ▸ hidb) with hold | hfree
      · exact hsound.workLocks a haold session hmem hane id hida hold
      · exact hfree a haold hane hida
    · exact hsound.workLocks a haold b hbold hne id hida hidb
  · intro a ha b hb hne id hida
    rcases hrows a ha with hanext | ⟨haold, hane⟩ <;>
      rcases hrows b hb with hbnext | ⟨hbold, hbne⟩
    · exact absurd (hanext ▸ hbnext ▸ rfl) hne
    · rcases hinstances id (hanext ▸ hida) with hold | hfree
      · exact hsound.instanceLocks session hmem b hbold (Ne.symm hbne) id hold
      · exact hfree b hbold hbne
    · constructor
      · intro hidb
        rcases hinstances id (hbnext ▸ hidb) with hold | hfree
        · exact (hsound.instanceLocks a haold session hmem hane id hida).1 hold
        · exact (hfree a haold hane).1 hida
      · intro hidb
        rcases hshared id (hbnext ▸ hidb) with hold | hfree
        · exact (hsound.instanceLocks a haold session hmem hane id hida).2 hold
        · exact hfree a haold hane hida
    · exact hsound.instanceLocks a haold b hbold hne id hida
  · intro modelInstanceId hwatched
    obtain ⟨id, hleased, hkeeps, hothers⟩ := hkept modelInstanceId hwatched
    refine ⟨id, hleased, fun other hother => ?_⟩
    rcases hrows other hother with rfl | ⟨hold, hne⟩
    · exact hkeeps
    · exact hothers other hold hne

theorem watched_put {modelInstanceId : Uuid}
    (hwatched : Watched (system.put next) modelInstanceId) (hmem : session ∈ system.sessions.rows)
    (hdrains : next.Drains modelInstanceId → session.Drains modelInstanceId) :
    Watched system modelInstanceId := by
  rcases hwatched with hdraining | ⟨other, hother, hother'⟩
  · exact .inl hdraining
  · rcases Table.mem_set.mp hother with rfl | ⟨hold, -⟩
    · exact .inr ⟨session, hmem, hdrains hother'⟩
    · exact .inr ⟨other, hold, hother'⟩

/-- Most statements keep what was kept. -/
theorem System.Sound.kept_put (hsound : system.Sound) (hmem : session ∈ system.sessions.rows)
    {modelInstanceId : Uuid} (hwatched : Watched (system.put next) modelInstanceId)
    (hdrains : next.Drains modelInstanceId → session.Drains modelInstanceId)
    (hkeeps : ∀ id, system.committed.Leased id modelInstanceId →
      session.Keeps modelInstanceId system.committed id →
        next.Keeps modelInstanceId system.committed id) :
    ∃ id, system.committed.Leased id modelInstanceId ∧
      next.Keeps modelInstanceId system.committed id ∧
      ∀ other ∈ system.sessions.rows, other.id ≠ session.id →
        other.Keeps modelInstanceId system.committed id := by
  obtain ⟨id, hleased, hall⟩ := hsound.kept modelInstanceId (watched_put hwatched hmem hdrains)
  exact ⟨id, hleased, hkeeps id hleased (hall session hmem), fun other hother _ =>
    hall other hother⟩

end Puts

section Restaging
variable {session next : Session} {committed : Rows}

theorem view_congr (hworks : next.works = session.works)
    (hinstances : next.instances = session.instances) :
    next.view committed = session.view committed := by
  rw [Session.view, Session.view, hworks, hinstances]

theorem Session.Sound.restage (h : session.Sound committed) (hopen : session.stage ≠ .done)
    (hworks : next.works = session.works) (hinstances : next.instances = session.instances)
    (hworkLocks : session.workLocks ⊆ next.workLocks)
    (hinstanceLocks : session.instanceLocks ⊆ next.instanceLocks)
    (hunpublishing : ∀ id ∈ next.stage.unpublishing?, id ∈ next.instanceLocks ∧ session.Fresh)
    (hbusy : ∀ work ∈ next.stage.work?, work.id ∈ next.workLocks ∧
      (session.view committed).works.find work.id = some work) : next.Sound committed where
  workLocks work hwork := hworkLocks (h.workLocks work (hworks ▸ hwork))
  instanceLocks row hrow := hinstanceLocks (h.instanceLocks row (hinstances ▸ hrow))
  unleased _ work hwork := h.unleased hopen work (hworks ▸ hwork)
  unpublished _ row hrow := h.unpublished hopen row (hinstances ▸ hrow)
  single row hrow hne := absurd (h.unpublished hopen row (hinstances ▸ hrow)) hne
  unpublishing id hid :=
    ⟨(hunpublishing id hid).1, hworks.trans (hunpublishing id hid).2.1,
      hinstances.trans (hunpublishing id hid).2.2⟩
  busy work hwork :=
    ⟨(hbusy work hwork).1, view_congr hworks hinstances ▸ (hbusy work hwork).2⟩

end Restaging

end MindOne.Coordinator.Draining

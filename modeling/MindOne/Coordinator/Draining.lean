import MindOne.Coordinator.State
import MindOne.Lib.LabelledRuns

/-!
# Draining instances

An instance that is unpublished while work is leased on it drains: whoever ends a lease
looks whether it was the last one. The transactions run statement by statement. A
statement sees what is committed when it starts and the changes of its own transaction;
row locks are kept to the end of the transaction.
-/

namespace MindOne.Coordinator.Draining

open KeyedTable

/-- Jobs and hidden challenges. -/
inductive WorkId where
  | job (id : Uuid)
  | challenge (id : Uuid)
  deriving DecidableEq, Repr

inductive WorkStatus where
  /-- `queued` or `retry`. -/
  | waiting
  | leased
  | ended
  deriving DecidableEq, Repr

structure Work where
  id : WorkId
  status : WorkStatus
  modelInstanceId : Option Uuid
  leaseExpiresAt : Option Int
  attemptCount : Nat
  maxAttempts : Nat
  deriving DecidableEq

structure InstanceRow where
  id : Uuid
  status : InstanceStatus
  deriving DecidableEq

structure Rows where
  works : Table Work.id
  instances : Table InstanceRow.id

def Work.LeasedOn (work : Work) (modelInstanceId : Uuid) : Prop :=
  work.status = .leased ∧ work.modelInstanceId = some modelInstanceId

instance (work : Work) (modelInstanceId : Uuid) : Decidable (work.LeasedOn modelInstanceId) :=
  inferInstanceAs (Decidable (_ ∧ _))

namespace Rows

def Leased (rows : Rows) (id : WorkId) (modelInstanceId : Uuid) : Prop :=
  ∃ work ∈ rows.works.find id, work.LeasedOn modelInstanceId

/-- What is leased on an instance. -/
def leases (rows : Rows) (modelInstanceId : Uuid) : List Work :=
  rows.works.rows.filter fun work => work.LeasedOn modelInstanceId

def status (rows : Rows) (modelInstanceId : Uuid) : Option InstanceStatus :=
  (rows.instances.find modelInstanceId).map InstanceRow.status

end Rows

/-- How work leaves its instance. -/
inductive Ending where
  | ended
  /-- A `standard` job goes back without an instance. -/
  | retried
  /-- A `regulated` job keeps it. -/
  | retriedInPlace
  deriving DecidableEq, Repr

def Ending.apply (ending : Ending) (work : Work) : Work :=
  match ending with
  | .ended => { work with status := .ended }
  | .retried =>
      { work with
        status := .waiting
        modelInstanceId := none
        leaseExpiresAt := none }
  | .retriedInPlace =>
      { work with
        status := .waiting
        leaseExpiresAt := none }

/-- How far a transaction has come. -/
inductive Stage where
  | ready
  /-- A row has been locked that has not ended. -/
  | found (work : Work)
  /-- It has been written, and `finalize_draining_instance` is next. -/
  | released (modelInstanceId : Uuid)
  /-- Its `UPDATE` has found the instance drained and waits for the row. -/
  | finalizing (modelInstanceId : Uuid)
  /-- `unpublish_model` holds the instance. -/
  | locked (modelInstanceId : Uuid)
  | counted (modelInstanceId : Uuid) (activeJobs : Nat)
  /-- `claim_job` has chosen a job for an instance. -/
  | chosen (work : Work) (modelInstanceId : Uuid)
  /-- It has found the instance published, under its lock. -/
  | confirmed (work : Work) (modelInstanceId : Uuid)
  | done
  deriving DecidableEq

/-- An open transaction, with the rows that it has written, the last one first. -/
structure Session where
  id : Nat
  stage : Stage
  works : List Work
  instances : List InstanceRow
  workLocks : List WorkId
  instanceLocks : List Uuid
  sharedLocks : List Uuid

structure System where
  clock : Int
  committed : Rows
  sessions : Table Session.id

inductive Statement where
  /-- `SELECT … FOR UPDATE` of a row that has not ended. -/
  | lockWork (id : WorkId)
  | endWork (ending : Ending)
  | renewLease (leaseExpiresAt : Int)
  /-- `finalize_draining_instance` after a row has been written. -/
  | finalize
  /-- The same on its own, or the part of the sweep that looks at one instance. -/
  | sweep (modelInstanceId : Uuid)
  /-- The row of the instance is free for the `UPDATE`. -/
  | finalized
  | lockInstance (modelInstanceId : Uuid)
  | countLeases
  | setStatus
  | publish (modelInstanceId : Uuid)
  | chooseJob (id : WorkId) (modelInstanceId : Uuid)
  | shareInstance
  | writeLease (leaseExpiresAt : Int)
  | leaseChallenge (id : WorkId) (modelInstanceId : Uuid) (leaseExpiresAt : Int)
  deriving DecidableEq

inductive Event where
  | tick (now : Int)
  | begin (t : Nat)
  | statement (t : Nat) (statement : Statement)
  | commit (t : Nat)
  | rollback (t : Nat)
  deriving DecidableEq

/-- What a transaction sees: the committed rows under those that it has written. -/
def Session.view (session : Session) (committed : Rows) : Rows where
  works := committed.works.setAll session.works
  instances := committed.instances.setAll session.instances

section Locks
variable (system : System) (session : Session)

/-- Nobody else holds the row of a job or a challenge. -/
def WorkFree (id : WorkId) : Prop :=
  ∀ other ∈ system.sessions.rows, other.id ≠ session.id → id ∉ other.workLocks

/-- Nobody else holds an instance for itself. -/
def InstanceShareable (modelInstanceId : Uuid) : Prop :=
  ∀ other ∈ system.sessions.rows, other.id ≠ session.id → modelInstanceId ∉ other.instanceLocks

/-- Nobody else holds an instance at all. -/
def InstanceFree (modelInstanceId : Uuid) : Prop :=
  ∀ other ∈ system.sessions.rows, other.id ≠ session.id →
    modelInstanceId ∉ other.instanceLocks ∧ modelInstanceId ∉ other.sharedLocks

instance (id : WorkId) : Decidable (WorkFree system session id) :=
  inferInstanceAs (Decidable (∀ other ∈ system.sessions.rows, _))

instance (modelInstanceId : Uuid) : Decidable (InstanceShareable system session modelInstanceId) :=
  inferInstanceAs (Decidable (∀ other ∈ system.sessions.rows, _))

instance (modelInstanceId : Uuid) : Decidable (InstanceFree system session modelInstanceId) :=
  inferInstanceAs (Decidable (∀ other ∈ system.sessions.rows, _))

end Locks

/-- A job that waits, or whose lease is over, and that has attempts left. -/
def Work.Claimable (work : Work) (now : Int) : Prop :=
  (work.status = .waiting ∨
    work.status = .leased ∧ ∃ expiresAt ∈ work.leaseExpiresAt, expiresAt ≤ now) ∧
  work.attemptCount < work.maxAttempts

instance (work : Work) (now : Int) : Decidable (work.Claimable now) :=
  inferInstanceAs (Decidable ((_ ∨ _ ∧ ∃ expiresAt ∈ work.leaseExpiresAt, _) ∧ _))

namespace Session

section Operations
variable (system : System) (session : Session)

def lockWork (id : WorkId) : Option Session :=
  match (session.view system.committed).works.find id with
  | none => none
  | some work =>
      if WorkFree system session id ∧ work.status ≠ .ended then
        some { session with
          stage := .found work
          workLocks := id :: session.workLocks }
      else none

def endWork (work : Work) (ending : Ending) : Session :=
  { session with
    stage := match work.modelInstanceId with
      | some modelInstanceId => .released modelInstanceId
      | none => .ready
    works := ending.apply work :: session.works }

def renewLease (work : Work) (leaseExpiresAt : Int) : Option Session :=
  if work.status = .leased then
    some { session with
      stage := .done
      works := { work with leaseExpiresAt := some leaseExpiresAt } :: session.works }
  else none

/-- The `UPDATE` of `finalize_draining_instance`, up to the lock of its row. -/
def look (modelInstanceId : Uuid) : Session :=
  if (session.view system.committed).status modelInstanceId = some .draining ∧
      (session.view system.committed).leases modelInstanceId = [] then
    { session with stage := .finalizing modelInstanceId }
  else { session with stage := .ready }

/-- The status is checked again on the locked row; the leases are not. -/
def finalized (modelInstanceId : Uuid) : Option Session :=
  if InstanceFree system session modelInstanceId then
    some { session with
      stage := .ready
      instances := if (session.view system.committed).status modelInstanceId = some .draining then
          ⟨modelInstanceId, .unpublished⟩ :: session.instances
        else session.instances
      instanceLocks := modelInstanceId :: session.instanceLocks }
  else none

/-- The transaction has written nothing; the ones of `unpublish_model` and `publish_model`
do nothing else. -/
def Fresh : Prop := session.works = [] ∧ session.instances = []

instance : Decidable session.Fresh := inferInstanceAs (Decidable (_ ∧ _))

def lockInstance (modelInstanceId : Uuid) : Option Session :=
  if session.Fresh ∧ InstanceFree system session modelInstanceId ∧
      (session.view system.committed).status modelInstanceId ≠ none then
    some { session with
      stage := .locked modelInstanceId
      instanceLocks := modelInstanceId :: session.instanceLocks }
  else none

def setStatus (modelInstanceId : Uuid) (activeJobs : Nat) : Session :=
  { session with
    stage := .done
    instances := ⟨modelInstanceId, if activeJobs = 0 then .unpublished else .draining⟩ ::
      session.instances }

def publish (modelInstanceId : Uuid) : Option Session :=
  if session.Fresh ∧ InstanceFree system session modelInstanceId then
    some { session with
      stage := .done
      instances := ⟨modelInstanceId, .published⟩ :: session.instances
      instanceLocks := modelInstanceId :: session.instanceLocks }
  else none

/-- The candidate query with `FOR UPDATE OF j SKIP LOCKED`. -/
def chooseJob (id : WorkId) (modelInstanceId : Uuid) : Option Session :=
  match id, (session.view system.committed).works.find id with
  | .job _, some work =>
      if WorkFree system session id ∧ work.Claimable system.clock ∧
          (session.view system.committed).status modelInstanceId = some .published then
        some { session with
          stage := .chosen work modelInstanceId
          workLocks := id :: session.workLocks }
      else none
  | _, _ => none

/-- `SELECT status … FOR SHARE`; the claim ends when the instance is not published. -/
def shareInstance (work : Work) (modelInstanceId : Uuid) : Option Session :=
  if InstanceShareable system session modelInstanceId then
    some { session with
      stage := if (session.view system.committed).status modelInstanceId = some .published then
          .confirmed work modelInstanceId
        else .done
      sharedLocks := modelInstanceId :: session.sharedLocks }
  else none

def writeLease (work : Work) (modelInstanceId : Uuid) (leaseExpiresAt : Int) : Session :=
  { session with
    stage := .done
    works := { work with
      status := .leased
      modelInstanceId := some modelInstanceId
      leaseExpiresAt := some leaseExpiresAt
      attemptCount := work.attemptCount + 1 } :: session.works }

/-- The candidate query of a hidden claim locks the instance; the challenge is new. -/
def leaseChallenge (id : WorkId) (modelInstanceId : Uuid) (leaseExpiresAt : Int) :
    Option Session :=
  match id with
  | .job _ => none
  | .challenge _ =>
      if WorkFree system session id ∧
          (session.view system.committed).works.find id = none ∧
          InstanceFree system session modelInstanceId ∧
          (session.view system.committed).status modelInstanceId = some .published ∧
          (session.view system.committed).leases modelInstanceId = [] then
        some { session with
          stage := .done
          works := ⟨id, .leased, some modelInstanceId, some leaseExpiresAt, 1, 1⟩ :: session.works
          workLocks := id :: session.workLocks
          instanceLocks := modelInstanceId :: session.instanceLocks }
      else none

end Operations

/-- What a statement does to its transaction. -/
def run (system : System) (session : Session) (statement : Statement) : Option Session :=
  match statement, session.stage with
  | .lockWork id, .ready => session.lockWork system id
  | .endWork ending, .found work => some (session.endWork work ending)
  | .renewLease leaseExpiresAt, .found work => session.renewLease work leaseExpiresAt
  | .finalize, .released modelInstanceId => some (session.look system modelInstanceId)
  | .sweep modelInstanceId, .ready => some (session.look system modelInstanceId)
  | .finalized, .finalizing modelInstanceId => session.finalized system modelInstanceId
  | .lockInstance modelInstanceId, .ready => session.lockInstance system modelInstanceId
  | .countLeases, .locked modelInstanceId =>
      some { session with
        stage := .counted modelInstanceId
          ((session.view system.committed).leases modelInstanceId).length }
  | .setStatus, .counted modelInstanceId activeJobs =>
      some (session.setStatus modelInstanceId activeJobs)
  | .publish modelInstanceId, .ready => session.publish system modelInstanceId
  | .chooseJob id modelInstanceId, .ready => session.chooseJob system id modelInstanceId
  | .shareInstance, .chosen work modelInstanceId =>
      session.shareInstance system work modelInstanceId
  | .writeLease leaseExpiresAt, .confirmed work modelInstanceId =>
      some (session.writeLease work modelInstanceId leaseExpiresAt)
  | .leaseChallenge id modelInstanceId leaseExpiresAt, .ready =>
      session.leaseChallenge system id modelInstanceId leaseExpiresAt
  | _, _ => none

def opened (t : Nat) : Session := ⟨t, .ready, [], [], [], [], []⟩

end Session

/-- A claim may give up after it has chosen a job. -/
def Stage.MayCommit : Stage → Prop
  | .ready | .found _ | .chosen _ _ | .done => True
  | .released _ | .finalizing _ | .locked _ | .counted _ _ | .confirmed _ _ => False

instance : (stage : Stage) → Decidable stage.MayCommit
  | .ready | .found _ | .chosen _ _ | .done => inferInstanceAs (Decidable True)
  | .released _ | .finalizing _ | .locked _ | .counted _ _ | .confirmed _ _ =>
      inferInstanceAs (Decidable False)

def System.put (system : System) (session : Session) : System :=
  { system with sessions := system.sessions.set session }

def step (event : Event) (system : System) : Option System :=
  match event with
  | .tick now => if system.clock ≤ now then some { system with clock := now } else none
  | .begin t =>
      match system.sessions.find t with
      | none => some (system.put (.opened t))
      | some _ => none
  | .statement t statement =>
      (system.sessions.find t).bind fun session =>
        (session.run system statement).map system.put
  | .commit t =>
      (system.sessions.find t).bind fun session =>
        if session.stage.MayCommit then
          some { system with
            committed := session.view system.committed
            sessions := system.sessions.erase t }
        else none
  | .rollback t =>
      (system.sessions.find t).map fun _ => { system with sessions := system.sessions.erase t }

def initial (clock : Int) (rows : Rows) : System := ⟨clock, rows, .empty⟩

end MindOne.Coordinator.Draining

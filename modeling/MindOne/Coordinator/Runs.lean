import MindOne.Coordinator.Operations

/-!
# Runs of the coordinator

A run is any finite sequence of actions from the migrated database. An action
whose transaction fails leaves the database as it was. Workers report and time
passes as actions of their own.
-/

namespace MindOne.Coordinator

open CheckedArithmetic Accounting Database KeyedTable

inductive Action where
  | passTime (now : Int)
  | report (workers : Workers)
  | bootstrap (userId : Uuid) (provider : String) (initialQuota : Int) (stamp : Stamp)
  | grant (request : OperatorQuotaGrantRequest) (grantId : Uuid) (stamp : Stamp)
  | release (command : ReserveReleaseCommand) (operatorAuditId : Uuid) (stamp : Stamp)
  | createStandard (principal : Principal) (request : CreateJobRequest) (jobId : Uuid)
  | createRegulated (principal : Principal) (request : CreateRegulatedJobRequest) (jobId : Uuid)
      (nowUtc : Int)
  | claim (principal : Principal) (request : ClaimJobRequest) (context : ClaimContext)
  | renew (principal : Principal) (jobId nodeId : Uuid) (nowUtc : Int)
  | fail (principal : Principal) (jobId : Uuid) (request : JobFailRequest) (nowUtc : Int)
  | complete (command : CompleteJob) (stamps : SettlementStamps)
  | result (principal : Principal) (jobId : Uuid) (request : JobResultRequest) (nowUtc : Int)
      (stamps : SettlementStamps)
  | reapExpired (locked : Uuid → Bool)
  | reapInvalid (locked : Uuid → Bool)
  | failAttestation (jobId : Uuid) (message : String)
  | cancel (principal : Principal) (jobId : Uuid)

/-- The database after a transaction: a failed one changes nothing. -/
def Db.commit {ε : Type} (db : Db) : Except ε Db → Db
  | .ok after => after
  | .error _ => db

section Perform
variable (env : Services)

def perform : Action → Db → Db
  | .passTime now, db => if db.now ≤ now then { db with now } else db
  | .report workers, db => if db.workers.Keeps workers then { db with workers } else db
  | .bootstrap userId provider initialQuota stamp, db =>
      db.commit (bootstrapAccount env db userId provider initialQuota stamp)
  | .grant request grantId stamp, db =>
      db.commit ((grantOperatorQuota env db request grantId stamp).map Prod.fst)
  | .release command operatorAuditId stamp, db =>
      db.commit ((releaseReserve env db command operatorAuditId stamp).map Prod.fst)
  | .createStandard principal request jobId, db =>
      db.commit ((createJobAuthenticated env db principal request jobId).map Prod.fst)
  | .createRegulated principal request jobId nowUtc, db =>
      db.commit ((createRegulatedJob env db principal request jobId nowUtc).map Prod.fst)
  | .claim principal request context, db =>
      db.commit ((claimJob env db principal request context).map Prod.fst)
  | .renew principal jobId nodeId nowUtc, db =>
      db.commit ((renewJob env db principal jobId nodeId nowUtc).map Prod.fst)
  | .fail principal jobId request nowUtc, db =>
      db.commit ((jobFail env db principal jobId request nowUtc).map Prod.fst)
  | .complete command stamps, db =>
      db.commit ((completeJob env db command stamps).map Prod.fst)
  | .result principal jobId request nowUtc stamps, db =>
      db.commit ((jobResult env db principal jobId request nowUtc stamps).map Prod.fst)
  | .reapExpired locked, db => db.commit (reapExpiredTerminalLeases locked db)
  | .reapInvalid locked, db => db.commit (reapInvalidRegulatedJobs locked db)
  | .failAttestation jobId message, db =>
      db.commit (failRegulatedLeaseAttestation db jobId message)
  | .cancel principal jobId, db => db.commit (cancelTimedOutJob db principal jobId)

/-- The quota that an action grants. -/
def Action.granted (db : Db) : Action → Int
  | .bootstrap userId provider initialQuota stamp =>
      match bootstrapAccount env db userId provider initialQuota stamp with
      | .ok _ => bootstrapAmount db userId initialQuota
      | .error _ => 0
  | .grant request grantId stamp =>
      match grantOperatorQuota env db request grantId stamp with
      | .ok (_, answer) => answer.granted
      | .error _ => 0
  | _ => 0

/-- The quota that an action takes out of the reserve. -/
def Action.released (db : Db) : Action → Int
  | .release command operatorAuditId stamp =>
      match releaseReserve env db command operatorAuditId stamp with
      | .ok (_, outcome) => outcome.released
      | .error _ => 0
  | _ => 0

/-- The action leaves a job leased whose attempt has ended. -/
def Action.AbandonsLease (db : Db) : Action → Prop
  | .claim principal request context => ClaimAbandonsLease env db principal request context
  | _ => False

/-- The databases that runs of allowed actions reach. -/
inductive Reachable (allowed : Action → Db → Prop) : Db → Prop
  | initial : Reachable allowed Db.initial
  | step {db : Db} (action : Action) (reachable : Reachable allowed db)
      (ok : allowed action db) : Reachable allowed (perform env action db)

/-- A run without restriction. -/
def Unrestricted : Action → Db → Prop := fun _ _ => True

/-- Some actions in a row. -/
def performAll (actions : List Action) (db : Db) : Db :=
  actions.foldl (fun db action => perform env action db) db

end Perform

section Refinement
variable {env : Services} {lost : Prop} {db : Db}

theorem commit_moves {ε : Type} {x : Except ε Db}
    (h : ∀ {after}, x = .ok after → Moves env lost db 0 after) :
    Moves env lost db 0 (db.commit x) := by
  cases x with
  | error e => exact .refl
  | ok after => exact h rfl

/-- The same for a transaction with an answer. -/
theorem commit_map_moves {ε α : Type} {x : Except ε (Db × α)}
    (h : ∀ {after answer}, x = .ok (after, answer) → Moves env lost db 0 after) :
    Moves env lost db 0 (db.commit (x.map Prod.fst)) := by
  cases x with
  | error e => exact .refl
  | ok outcome => exact h rfl

/-- Every action is a sequence of transitions, through which enters what the action
grants and leaves what it releases. -/
theorem perform_moves (env : Services) (action : Action) (db : Db) :
    Moves env (action.AbandonsLease env db) db (action.granted env db - action.released env db)
      (perform env action db) := by
  cases action <;> simp only [Action.granted, Action.released, sub_zero, zero_sub]
  case passTime now =>
    simp only [perform]
    split
    · rename_i hnow
      exact Quiet.moves ⟨hnow, rfl, rfl, rfl, rfl, .refl _, fun _ _ h => h, fun _ _ h => h⟩
    · exact .refl
  case report workers =>
    simp only [perform]
    split
    · rename_i keeps
      exact Quiet.moves (.ofWorkers keeps)
    · exact .refl
  case bootstrap userId provider initialQuota stamp =>
    simp only [perform]
    cases h : bootstrapAccount env db userId provider initialQuota stamp with
    | error e => exact .refl
    | ok after => exact bootstrapAccount_moves h
  case grant request grantId stamp =>
    simp only [perform]
    cases h : grantOperatorQuota env db request grantId stamp with
    | error e => exact .refl
    | ok outcome => exact grantOperatorQuota_moves h
  case release command operatorAuditId stamp =>
    simp only [perform]
    cases h : releaseReserve env db command operatorAuditId stamp with
    | error e => exact .refl
    | ok outcome => exact releaseReserve_moves h
  case createStandard => exact commit_map_moves createJobAuthenticated_moves
  case createRegulated => exact commit_map_moves createRegulatedJob_moves
  case claim => exact commit_map_moves claimJob_moves
  case renew => exact commit_map_moves renewJob_moves
  case fail => exact commit_map_moves jobFail_moves
  case complete => exact commit_map_moves completeJob_moves
  case result => exact commit_map_moves jobResult_moves
  case reapExpired => exact commit_moves reapExpiredTerminalLeases_moves
  case reapInvalid =>
    refine commit_moves fun h => ?_
    obtain ⟨-, rfl⟩ := reapInvalidRegulatedJobs_eq_ok.mp h
    exact .refl
  case failAttestation =>
    refine commit_moves fun h => ?_
    obtain ⟨_, -, -, ends⟩ := failRegulatedLeaseAttestation_endsAs h
    exact ends.moves
  case cancel => exact commit_moves cancelTimedOutJob_moves

end Refinement

section Reachable
variable {env : Services} {allowed : Action → Db → Prop} {db : Db}

/-- What holds at the start and what every transition keeps holds on every run. -/
theorem Reachable.invariant {I : Db → Prop} (h : Reachable env allowed db)
    (hinitial : I Db.initial)
    (hstep : ∀ {lost db flow after}, Transition env lost db flow after → I db → I after) :
    I db := by
  induction h with
  | initial => exact hinitial
  | step action _ _ ih => exact (perform_moves env action _).keeps hstep ih

/-- The same when no allowed action abandons a lease. -/
theorem Reachable.sound_invariant {I : Db → Prop} (h : Reachable env allowed db)
    (hallowed : ∀ {action db}, allowed action db → ¬ action.AbandonsLease env db)
    (hinitial : I Db.initial)
    (hstep : ∀ {lost db flow after}, ¬ lost → Transition env lost db flow after → I db →
      I after) : I db := by
  induction h with
  | initial => exact hinitial
  | step action _ ok ih => exact (perform_moves env action _).keeps (hstep (hallowed ok)) ih

theorem Reachable.performAll (h : Reachable env Unrestricted db) (actions : List Action) :
    Reachable env Unrestricted (performAll env actions db) := by
  induction actions generalizing db with
  | nil => exact h
  | cons action rest ih => exact ih (h.step action trivial)

/-- What every transition keeps, some actions in a row keep. -/
theorem performAll_keeps {I : Db → Prop}
    (hstep : ∀ {lost db flow after}, Transition env lost db flow after → I db → I after)
    (actions : List Action) (h : I db) : I (Coordinator.performAll env actions db) := by
  induction actions generalizing db with
  | nil => exact h
  | cons action rest ih => exact ih ((perform_moves env action db).keeps hstep h)

theorem lives_initial {P : Life → Prop} : Db.initial.Lives P where
  lives := fun _ h => nomatch h
  attempts := fun _ _ h => nomatch h
  receipts := fun _ h => nomatch h

theorem Reachable.consistent (h : Reachable env allowed db) : db.ledger.Consistent :=
  h.invariant LedgerDb.consistent_initial Transition.consistent

theorem Reachable.wellFormed (h : Reachable env allowed db) : db.Lives Life.WellFormed :=
  h.invariant lives_initial Transition.wellFormed

theorem Reachable.admitted (h : Reachable env allowed db) : db.Admitted env :=
  h.invariant (fun _ h => nomatch h) Transition.admitted

end Reachable

end MindOne.Coordinator

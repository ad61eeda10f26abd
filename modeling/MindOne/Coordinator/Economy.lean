import MindOne.Coordinator.Attempts

/-!
# The economy over whole runs

Quota is granted, moves between users and the reserve, and leaves by releases of the
reserve. What is in circulation is therefore always what was granted and has not been
released. A request that is repeated finds what its first run has left and moves nothing.
-/

namespace MindOne.Coordinator

open CheckedArithmetic Accounting Database KeyedTable

/-- What the users can spend and what the reserve holds. -/
def Db.circulating (db : Db) : Int := db.ledger.spendable + db.ledger.reserve.balanceMicro

section Flow
variable {env : Services} {lost : Prop} {db after : Db} {flow : Int}

theorem Transition.circulating (t : Transition env lost db flow after) :
    after.circulating = db.circulating + flow := by
  simp only [Db.circulating]
  cases t with
  | quiet quiet => rw [quiet.ledger, add_zero]
  | opened fresh =>
      show (db.ledger.openAccount _).spendable + db.ledger.reserve.balanceMicro = _
      rw [LedgerDb.spendable_openAccount fresh, add_zero]
  | credited inserted =>
      obtain ⟨hspendable, hreserve⟩ := inserted.totals
      simp only [if_true, reduceCtorEq, if_false] at hspendable hreserve ⊢
      omega
  | withdrawn inserted =>
      obtain ⟨hspendable, hreserve⟩ := inserted.totals
      simp only [if_true, reduceCtorEq, if_false] at hspendable hreserve ⊢
      omega
  | created fresh new reserved follows =>
      obtain ⟨hspendable, hreserve⟩ := reserved.totals
      rw [hspendable, hreserve, add_zero]
  | kept found step follows ledger => rw [ledger, add_zero]
  | ended found step follows released =>
      obtain ⟨hspendable, hreserve⟩ := released.totals
      rw [hspendable, hreserve, add_zero]
  | settled found step follows paid => rw [paid.totals, add_zero]

theorem Moves.circulating (h : Moves env lost db flow after) :
    after.circulating = db.circulating + flow := by
  induction h with
  | refl => exact (add_zero _).symm
  | tail _ transition ih => rw [transition.circulating, ih, add_assoc]

theorem perform_circulating (env : Services) (action : Action) (db : Db) :
    (perform env action db).circulating =
      db.circulating + (action.granted env db - action.released env db) :=
  (perform_moves env action db).circulating

end Flow

section Totals
variable (env : Services)

/-- The quota that a run grants. -/
def grantedBy : List Action → Db → Int
  | [], _ => 0
  | action :: rest, db => action.granted env db + grantedBy rest (perform env action db)

/-- The quota that a run takes out of the reserve. -/
def releasedBy : List Action → Db → Int
  | [], _ => 0
  | action :: rest, db => action.released env db + releasedBy rest (perform env action db)

theorem performAll_circulating (actions : List Action) (db : Db) :
    (performAll env actions db).circulating + releasedBy env actions db =
      db.circulating + grantedBy env actions db := by
  induction actions generalizing db with
  | nil => rfl
  | cons action rest ih =>
      have hrest := ih (perform env action db)
      have hstep := perform_circulating env action db
      simp only [performAll, List.foldl_cons] at hrest ⊢
      simp only [grantedBy, releasedBy]
      omega

end Totals

/-! ## Accounts and rows stay -/

section Accounts
variable {ledger after : LedgerDb} {table : LedgerTable} {entryType : String} {delta : Int}

theorem Moved_keepsAccounts {userId : Uuid} (h : ledger.Moved userId delta after) :
    KeepsKeys ledger.accounts after.accounts := by
  obtain ⟨account, -, -, -, rfl⟩ := h
  exact keepsKeys_set _ _

theorem Inserted_keepsAccounts {userId : Option Uuid}
    (h : ledger.Inserted table userId entryType delta after) :
    KeepsKeys ledger.accounts after.accounts := by
  cases table with
  | quotaLedger =>
      obtain ⟨_, _, _, -, -, -, -, rfl⟩ := h.quota
      exact keepsKeys_set _ _
  | contributionLedger =>
      obtain ⟨_, _, _, -, -, rfl⟩ := h.contribution
      exact keepsKeys_set _ _
  | reserveLedger =>
      obtain ⟨_, _, -, -, rfl⟩ := h.reserve
      exact .refl _

theorem Paid.keepsAccounts {consumer node : Uuid} {reserved : Int}
    (h : Paid ledger consumer node reserved after) : KeepsKeys ledger.accounts after.accounts := by
  obtain ⟨_, _, _, _, _, -, released, paid, credited, contributed, kept⟩ := h
  exact (Moved_keepsAccounts released).trans ((Inserted_keepsAccounts paid).trans
    ((Inserted_keepsAccounts credited).trans ((Inserted_keepsAccounts contributed).trans
      (Inserted_keepsAccounts kept))))

variable {env : Services} {lost : Prop} {db final : Db} {flow : Int}

theorem Transition.keepsAccounts (t : Transition env lost db flow final) :
    KeepsKeys db.ledger.accounts final.ledger.accounts := by
  cases t with
  | quiet quiet => exact quiet.ledger ▸ .refl _
  | opened fresh => exact keepsKeys_set _ _
  | credited inserted => exact Inserted_keepsAccounts inserted
  | withdrawn inserted => exact Inserted_keepsAccounts inserted
  | created fresh new reserved follows => exact Moved_keepsAccounts reserved
  | kept found step follows ledger => exact ledger ▸ .refl _
  | ended found step follows released => exact Moved_keepsAccounts released
  | settled found step follows paid => exact paid.keepsAccounts

/-- Rows of the ledgers are only appended. -/
theorem Transition.rows (t : Transition env lost db flow final) (table : LedgerTable) :
    db.ledger.table table <+: final.ledger.table table := by
  cases t with
  | quiet quiet => exact quiet.ledger ▸ List.prefix_rfl
  | opened fresh => cases table <;> exact List.prefix_rfl
  | credited inserted => exact inserted.rows table
  | withdrawn inserted => exact inserted.rows table
  | created fresh new reserved follows => exact reserved.rows table ▸ List.prefix_rfl
  | kept found step follows ledger => exact ledger ▸ List.prefix_rfl
  | ended found step follows released => exact released.rows table ▸ List.prefix_rfl
  | settled found step follows paid => exact paid.rows table

theorem Transition.grants (t : Transition env lost db flow final) {key : String}
    (h : (db.operatorQuotaGrants.find key).isSome) :
    (final.operatorQuotaGrants.find key).isSome := by
  cases t with
  | quiet quiet =>
      obtain ⟨grant, hgrant⟩ := Option.isSome_iff_exists.mp h
      rw [quiet.grants key grant hgrant]
      rfl
  | opened fresh => exact h
  | credited inserted => exact h
  | withdrawn inserted => exact h
  | created fresh new reserved follows => exact follows.grants ▸ h
  | kept found step follows ledger => exact follows.grants ▸ h
  | ended found step follows released => exact follows.grants ▸ h
  | settled found step follows paid => exact follows.grants ▸ h

end Accounts

/-! ## Repeated requests -/

/-- The transaction of a request goes through and its answer is a success. -/
def Action.Succeeds (env : Services) (db : Db) : Action → Prop
  | .bootstrap userId provider initialQuota stamp =>
      ∃ after, bootstrapAccount env db userId provider initialQuota stamp = .ok after
  | .grant request grantId stamp =>
      ∃ after result, grantOperatorQuota env db request grantId stamp = .ok (after, result)
  | .release command operatorAuditId stamp =>
      ∃ after outcome, releaseReserve env db command operatorAuditId stamp = .ok (after, outcome)
  | .complete command stamps =>
      ∃ after outcome, completeJob env db command stamps = .ok (after, .ok outcome)
  | _ => False

/-- The second request carries the key of the first, whatever else it says. -/
def Action.Repeats : Action → Action → Prop
  | .bootstrap userId _ _ _, .bootstrap again _ _ _ => again = userId
  | .grant request _ _, .grant again _ _ => again.idempotencyKey = request.idempotencyKey
  | .release command _ _, .release again _ _ => again.idempotencyKey = command.idempotencyKey
  | .complete command _, .complete again _ =>
      again.jobId = command.jobId ∧ again.idempotencyKey = command.idempotencyKey
  | .complete command _, .result _ jobId again _ _ =>
      jobId = command.jobId ∧ again.idempotencyKey = command.idempotencyKey
  | _, _ => False

/-- What a successful request leaves behind. -/
def Action.Recorded (db : Db) : Action → Prop
  | .bootstrap userId _ _ _ => (db.ledger.accounts.find userId).isSome
  | .grant request _ _ => (db.operatorQuotaGrants.find request.idempotencyKey).isSome
  | .release command _ _ =>
      ∃ row ∈ db.ledger.table .reserveLedger, row.idempotencyKey = command.idempotencyKey
  | .complete command _ => ∃ job, db.jobs.find command.jobId = some job ∧ job.status = .succeeded
  | _ => True

section Repeats
variable {env : Services} {lost : Prop} {db after : Db} {flow : Int}

theorem Transition.recorded (t : Transition env lost db flow after) {action : Action}
    (h : action.Recorded db) : action.Recorded after := by
  cases action with
  | bootstrap => exact t.keepsAccounts.find h
  | grant => exact t.grants h
  | release =>
      obtain ⟨row, hrow, hkey⟩ := h
      exact ⟨row, (t.rows .reserveLedger).subset hrow, hkey⟩
  | complete =>
      obtain ⟨job, hjob, hstatus⟩ := h
      have hid : job.id = _ := Table.key_of_find hjob
      have hended : ¬ job.status.Live := by
        rw [hstatus]
        decide
      have hkept : KeepsEnded db after := t.keepsEnded fun _ hstart _ => hstart
      rw [← hid] at hjob
      refine ⟨job, ?_, hstatus⟩
      rw [← hid]
      exact hkept job hjob hended
  | _ => trivial

theorem bootstrapAccount_records {userId : Uuid} {provider : String} {initialQuota : Int}
    {stamp : Stamp} (h : bootstrapAccount env db userId provider initialQuota stamp = .ok after) :
    (after.ledger.accounts.find userId).isSome := by
  simp only [bootstrapAccount] at h
  cases hfind : (db.learnUser userId).ledger.accounts.find userId with
  | some account =>
      simp only [hfind] at h
      cases h
      rw [hfind]
      rfl
  | none =>
      simp only [hfind, bind_eq_ok] at h
      obtain ⟨opened, hopened, hfund⟩ := h
      obtain ⟨-, rfl⟩ := openAccount_eq_ok hopened
      have hopen : (((db.learnUser userId).ledger.openAccount userId).accounts.find
          userId).isSome := by
        have hself : ((db.learnUser userId).ledger.accounts.set (.new userId)).find
            (QuotaAccount.new userId).userId = some (.new userId) := Table.find_set_self
        exact Option.isSome_of_mem hself
      unfold fundAccount at hfund
      split at hfund
      · simp only [bind_eq_ok, orInternal_eq_ok] at hfund
        obtain ⟨entry, hentry, written, hwritten, hafter⟩ := hfund
        cases hafter
        exact (Inserted_keepsAccounts (newEntry_inserted hentry hwritten)).find hopen
      · cases hfund
        exact hopen

theorem grantOperatorQuota_records {request : OperatorQuotaGrantRequest} {grantId : Uuid}
    {stamp : Stamp} {result : OperatorQuotaGrantResult}
    (h : grantOperatorQuota env db request grantId stamp = .ok (after, result)) :
    (after.operatorQuotaGrants.find request.idempotencyKey).isSome := by
  simp only [grantOperatorQuota, bind_eq_ok] at h
  obtain ⟨_, -, h⟩ := h
  cases hexisting : existingGrant db request.idempotencyKey with
  | some existing =>
      obtain ⟨grant, row⟩ := existing
      simp only [hexisting, bind_eq_ok] at h
      obtain ⟨_, -, hafter⟩ := h
      cases hafter
      simp only [existingGrant, Option.bind_eq_bind, Option.bind_eq_some_iff] at hexisting
      obtain ⟨stored, hstored, -⟩ := hexisting
      exact Option.isSome_of_mem hstored
  | none =>
      simp only [hexisting] at h
      split at h
      · simp only [writeGrant, bind_eq_ok, orAccounting_eq_ok, orDatabase_eq_ok] at h
        obtain ⟨_, -, entry, -, written, -, granted, hgranted, hafter⟩ := h
        cases hafter
        simp only [Db.insertGrant, bind_eq_ok] at hgranted
        obtain ⟨_, -, _, -, hstored⟩ := hgranted
        cases hstored
        exact Option.isSome_of_mem Table.find_set_self
      · split at h <;> cases h

/-- Under a key that was used a grant changes nothing. -/
theorem grantOperatorQuota_of_recorded {request : OperatorQuotaGrantRequest} {grantId : Uuid}
    {stamp : Stamp} {result : OperatorQuotaGrantResult}
    (hrecorded : (db.operatorQuotaGrants.find request.idempotencyKey).isSome)
    (h : grantOperatorQuota env db request grantId stamp = .ok (after, result)) : after = db := by
  simp only [grantOperatorQuota, bind_eq_ok] at h
  obtain ⟨_, -, h⟩ := h
  cases hexisting : existingGrant db request.idempotencyKey with
  | some existing =>
      obtain ⟨grant, row⟩ := existing
      simp only [hexisting, bind_eq_ok] at h
      obtain ⟨_, -, hafter⟩ := h
      cases hafter
      rfl
  | none =>
      simp only [hexisting] at h
      split at h
      · -- the unique index on the keys refuses the second grant
        simp only [writeGrant, bind_eq_ok, orAccounting_eq_ok, orDatabase_eq_ok] at h
        obtain ⟨_, -, entry, -, written, -, granted, hgranted, -⟩ := h
        simp only [Db.insertGrant, bind_eq_ok, rejectIf_eq_ok, exists_const] at hgranted
        obtain ⟨-, unique, -⟩ := hgranted
        obtain ⟨stored, hstored⟩ := Option.isSome_iff_exists.mp hrecorded
        exact absurd ⟨stored, Table.mem_of_find hstored,
          .inr (.inl (Table.key_of_find hstored))⟩ unique
      · split at h <;> cases h

theorem releaseReserve_records {command : ReserveReleaseCommand} {operatorAuditId : Uuid}
    {stamp : Stamp} {outcome : ReserveReleaseOutcome}
    (h : releaseReserve env db command operatorAuditId stamp = .ok (after, outcome)) :
    ∃ row ∈ after.ledger.table .reserveLedger, row.idempotencyKey = command.idempotencyKey := by
  simp only [releaseReserve, bind_eq_ok] at h
  obtain ⟨_, -, h⟩ := h
  cases hexisting : existingRelease db command.idempotencyKey with
  | some existing =>
      obtain ⟨row, audit⟩ := existing
      simp only [hexisting, bind_eq_ok] at h
      obtain ⟨_, -, hafter⟩ := h
      cases hafter
      simp only [existingRelease, Option.bind_eq_bind, Option.bind_eq_some_iff] at hexisting
      obtain ⟨stored, hstored, -⟩ := hexisting
      have hkey := List.find?_some hstored
      exact ⟨stored, List.mem_of_find?_eq_some hstored, of_decide_eq_true hkey⟩
  | none =>
      simp only [hexisting, writeRelease, bind_eq_ok, orInternal_eq_ok] at h
      obtain ⟨amount, -, before, -, ⟨_, release⟩, -, entry, -, written, -, released, hreleased,
        hafter⟩ := h
      cases hafter
      simp only [Db.insertRelease, bind_eq_ok, rejectIf_eq_ok, exists_const, not_not] at hreleased
      obtain ⟨⟨row, hrow, -, -, -, -, -, hkey, -⟩, -, hstored⟩ := hreleased
      cases hstored
      exact ⟨row, hrow, hkey⟩

/-- Under a key that was used a release changes nothing. -/
theorem releaseReserve_of_recorded {command : ReserveReleaseCommand} {operatorAuditId : Uuid}
    {stamp : Stamp} {outcome : ReserveReleaseOutcome}
    (hrecorded : ∃ row ∈ db.ledger.table .reserveLedger,
      row.idempotencyKey = command.idempotencyKey)
    (h : releaseReserve env db command operatorAuditId stamp = .ok (after, outcome)) :
    after = db := by
  simp only [releaseReserve, bind_eq_ok] at h
  obtain ⟨_, -, h⟩ := h
  cases hexisting : existingRelease db command.idempotencyKey with
  | some existing =>
      obtain ⟨row, audit⟩ := existing
      simp only [hexisting, bind_eq_ok] at h
      obtain ⟨_, -, hafter⟩ := h
      cases hafter
      rfl
  | none =>
      obtain ⟨row, hrow, hkey⟩ := hrecorded
      simp only [existingRelease, Option.bind_eq_bind, Option.bind_eq_none_iff] at hexisting
      have hnone : db.ledger.reserveLedger.find? (fun row =>
          row.idempotencyKey = command.idempotencyKey) = none := by
        cases hfind : db.ledger.reserveLedger.find? fun row =>
            row.idempotencyKey = command.idempotencyKey with
        | none => rfl
        | some found => cases hexisting found hfind
      have hother := List.find?_eq_none.mp hnone row hrow
      exact absurd (decide_eq_true hkey) hother

theorem settleJob_records {rows : CompletionRows} {command : CompleteJob} {fingerprint : String}
    {stamps : SettlementStamps} {outcome : SettlementOutcome}
    (h : settleJob env db rows command fingerprint stamps = .ok (after, outcome)) :
    ∃ job, after.jobs.find rows.job.id = some job ∧ job.status = .succeeded := by
  simp only [settleJob, bind_eq_ok] at h
  obtain ⟨_, -, _, -, _, -, _, -, ⟨paid, _⟩, -, _, -, receipted, -, _, -, ciphertext, -, _, -, _, -,
    hafter⟩ := h
  cases hafter
  let settled : Job := { rows.job with
    status := .succeeded
    resultCiphertext := some ciphertext
    resultIdempotencyKey := some command.idempotencyKey
    actualInputTokens := some command.actualInputTokens
    actualOutputTokens := some command.actualOutputTokens
    resultTelemetryFingerprint := some fingerprint }
  have hjobs : ((receipted.putJob settled).succeedAttempt rows.job command.idempotencyKey).jobs =
      receipted.jobs.set settled := by
    unfold Db.succeedAttempt
    split <;> rfl
  refine ⟨settled, ?_, rfl⟩
  rw [(Db.finalizeDrainingInstance_quiet _ _).jobs, hjobs]
  exact Table.find_set_self

theorem completeJob_records {command : CompleteJob} {stamps : SettlementStamps}
    {outcome : SettlementOutcome}
    (h : completeJob env db command stamps = .ok (after, .ok outcome)) :
    ∃ job, after.jobs.find command.jobId = some job ∧ job.status = .succeeded := by
  simp only [completeJob, bind_eq_ok] at h
  obtain ⟨_, -, h⟩ := h
  cases hrows : completionRows db command.jobId with
  | none => simp [hrows] at h
  | some rows =>
      simp only [hrows, bind_eq_ok] at h
      obtain ⟨_, -, fingerprint, -, h⟩ := h
      obtain ⟨found, -, -⟩ := completionRows_spec hrows
      split at h
      · next hstatus =>
          obtain ⟨_, -, hafter⟩ := bind_eq_ok.mp h
          cases hafter
          exact ⟨rows.job, found, hstatus⟩
      · simp only [bind_eq_ok, rejectIf_eq_ok, exists_const, not_not] at h
        obtain ⟨-, h⟩ := h
        unfold completeLeasedJob at h
        split at h
        · obtain ⟨_, -, hafter⟩ := bind_eq_ok.mp h
          cases hafter
        · simp only [bind_eq_ok, rejectIf_eq_ok, exists_const, not_not] at h
          obtain ⟨_, -, -, ⟨settled, _⟩, hsettled, hafter⟩ := h
          cases hafter
          have hid : rows.job.id = command.jobId := Table.key_of_find found
          rw [← hid]
          exact settleJob_records hsettled

/-- A result of a job that has succeeded changes nothing. -/
theorem completeJob_of_succeeded {command : CompleteJob} {stamps : SettlementStamps}
    {answer : ApiResult SettlementOutcome} {job : Job}
    (hjob : db.jobs.find command.jobId = some job) (hstatus : job.status = .succeeded)
    (h : completeJob env db command stamps = .ok (after, answer)) : after = db := by
  simp only [completeJob, bind_eq_ok] at h
  obtain ⟨_, -, h⟩ := h
  cases hrows : completionRows db command.jobId with
  | none => simp [hrows] at h
  | some rows =>
      obtain ⟨found, -, -⟩ := completionRows_spec hrows
      have hsame : rows.job = job := Option.some.inj (found.symm.trans hjob)
      simp only [hrows, bind_eq_ok] at h
      obtain ⟨_, -, fingerprint, -, h⟩ := h
      rw [if_pos (hsame ▸ hstatus), bind_eq_ok] at h
      obtain ⟨_, -, hafter⟩ := h
      cases hafter
      rfl

/-- A result that is handed in again moves no quota; hidden work never does. -/
theorem jobResult_of_succeeded {principal : Principal} {jobId : Uuid} {request : JobResultRequest}
    {nowUtc : Int} {stamps : SettlementStamps} {answer : ApiResult Bool} {job : Job}
    (hjob : db.jobs.find jobId = some job) (hstatus : job.status = .succeeded)
    (h : jobResult env db principal jobId request nowUtc stamps = .ok (after, answer)) :
    after.ledger = db.ledger := by
  simp only [jobResult, bind_eq_ok] at h
  obtain ⟨_, -, kind, -, h⟩ := h
  have completed (h : (env.validateJobResult db jobId request >>= fun _ =>
      completeJob env db (request.command principal jobId) stamps >>= fun settled =>
        .ok (settled.1, settled.2.map SettlementOutcome.idempotentReplay)) = .ok (after, answer)) :
      after.ledger = db.ledger := by
    obtain ⟨_, -, h⟩ := bind_eq_ok.mp h
    obtain ⟨⟨settled, _⟩, hsettled, hafter⟩ := bind_eq_ok.mp h
    cases hafter
    rw [completeJob_of_succeeded hjob hstatus hsettled]
  cases kind with
  | hidden => exact (submitUnlessExpired_quiet submitHidden_quiet h).ledger
  | ordinary => exact completed h
  | missing => exact completed h

theorem commit_ledger {ε α : Type} {x : Except ε (Db × α)}
    (h : ∀ {after answer}, x = .ok (after, answer) → after.ledger = db.ledger) :
    (db.commit (x.map Prod.fst)).ledger = db.ledger := by
  cases x with
  | error e => rfl
  | ok outcome => exact h rfl

theorem Action.Succeeds.recorded {action : Action} (h : action.Succeeds env db) :
    action.Recorded (perform env action db) := by
  cases action with
  | bootstrap userId provider initialQuota stamp =>
      obtain ⟨after, hafter⟩ := h
      simp only [perform, hafter, Db.commit]
      exact bootstrapAccount_records hafter
  | grant request grantId stamp =>
      obtain ⟨after, result, hafter⟩ := h
      simp only [perform, hafter, Except.map, Db.commit]
      exact grantOperatorQuota_records hafter
  | release command operatorAuditId stamp =>
      obtain ⟨after, outcome, hafter⟩ := h
      simp only [perform, hafter, Except.map, Db.commit]
      exact releaseReserve_records hafter
  | complete command stamps =>
      obtain ⟨after, outcome, hafter⟩ := h
      simp only [perform, hafter, Except.map, Db.commit]
      exact completeJob_records hafter
  | _ => trivial

/-- A repeated request finds its record and moves nothing. -/
theorem Action.Repeats.ledger {action again : Action} (hrepeats : action.Repeats again)
    (hrecorded : action.Recorded db) : (perform env again db).ledger = db.ledger := by
  cases action with
  | bootstrap userId provider initialQuota stamp =>
      cases again with
      | bootstrap other provider' initialQuota' stamp' =>
          cases hrepeats
          obtain ⟨account, haccount⟩ := Option.isSome_iff_exists.mp hrecorded
          have hledger : (db.learnUser userId).ledger = db.ledger := by
            unfold Db.learnUser
            split <;> rfl
          simp only [perform, bootstrapAccount, hledger, haccount, Db.commit]
      | _ => cases hrepeats
  | grant request grantId stamp =>
      cases again with
      | grant other grantId' stamp' =>
          have hkey : other.idempotencyKey = request.idempotencyKey := hrepeats
          rw [Action.Recorded, ← hkey] at hrecorded
          refine commit_ledger fun h => ?_
          rw [grantOperatorQuota_of_recorded hrecorded h]
      | _ => cases hrepeats
  | release command operatorAuditId stamp =>
      cases again with
      | release other operatorAuditId' stamp' =>
          have hkey : other.idempotencyKey = command.idempotencyKey := hrepeats
          rw [Action.Recorded, ← hkey] at hrecorded
          refine commit_ledger fun h => ?_
          rw [releaseReserve_of_recorded hrecorded h]
      | _ => cases hrepeats
  | complete command stamps =>
      obtain ⟨job, hjob, hstatus⟩ := hrecorded
      cases again with
      | complete other stamps' =>
          rw [← hrepeats.1] at hjob
          refine commit_ledger fun h => ?_
          rw [completeJob_of_succeeded hjob hstatus h]
      | result principal jobId other nowUtc stamps' =>
          rw [← hrepeats.1] at hjob
          exact commit_ledger fun h => jobResult_of_succeeded hjob hstatus h
      | _ => cases hrepeats
  | _ => cases again <;> cases hrepeats

end Repeats

/-- Over every run what circulates and what was released is what was granted, no balance
is negative, contributions are booked apart, and a repeated request moves nothing. -/
theorem quota_conserved (env : Services) (actions : List Action) :
    (performAll env actions Db.initial).ledger.spendable +
        (performAll env actions Db.initial).ledger.reserve.balanceMicro +
        releasedBy env actions Db.initial = grantedBy env actions Db.initial ∧
    (∀ account ∈ (performAll env actions Db.initial).ledger.accounts.rows,
      0 ≤ account.spendableMicro ∧ 0 ≤ account.contributionMicro) ∧
    0 ≤ (performAll env actions Db.initial).ledger.reserve.balanceMicro ∧
    (∀ userId entryType delta after,
      (performAll env actions Db.initial).ledger.Inserted .contributionLedger userId entryType
        delta after →
      after.spendable = (performAll env actions Db.initial).ledger.spendable ∧
        after.reserve.balanceMicro =
          (performAll env actions Db.initial).ledger.reserve.balanceMicro) ∧
    ∀ earlier action later again, actions = earlier ++ action :: later →
      action.Succeeds env (performAll env earlier Db.initial) → action.Repeats again →
      (perform env again (performAll env actions Db.initial)).ledger =
        (performAll env actions Db.initial).ledger := by
  have hreachable : Reachable env Unrestricted (performAll env actions Db.initial) :=
    .performAll .initial actions
  refine ⟨?_, ?_, ?_, ?_, ?_⟩
  · have htotal := performAll_circulating env actions Db.initial
    have hstart : Db.initial.circulating = 0 := rfl
    rwa [hstart, zero_add] at htotal
  · intro account hmem
    obtain ⟨checked, -⟩ := hreachable.consistent.account (Table.find_of_mem hmem)
    obtain ⟨hspendable, -, hcontribution, -⟩ := QuotaAccount.check_eq_ok.mp checked
    exact ⟨hspendable, hcontribution⟩
  · obtain ⟨checked, -⟩ := hreachable.consistent .reserve
    simp only [ReserveAccount.check, bind_eq_ok, rejectIf_eq_ok, exists_const, not_lt] at checked
    exact checked.1
  · intro userId entryType delta after inserted
    obtain ⟨hspendable, hreserve⟩ := inserted.totals
    simp only [reduceCtorEq, if_false, add_zero] at hspendable hreserve
    exact ⟨hspendable, hreserve⟩
  · rintro earlier action later again rfl hsucceeds hrepeats
    have hrecorded : action.Recorded (performAll env (earlier ++ action :: later) Db.initial) := by
      rw [performAll, List.foldl_append, List.foldl_cons]
      exact performAll_keeps (fun t h => t.recorded h) later hsucceeds.recorded
    exact hrepeats.ledger hrecorded

section Sample

/-- Services whose digests differ. -/
def economyServices : Services :=
  { sampleServices with
    digest := fun bytes => String.ofList (hexDigits 64
      (bytes.foldl (fun sum byte => sum + byte.toNat) 0)) }

def sampleGrantRequest : OperatorQuotaGrantRequest :=
  ⟨sampleUser, 500, "grant-1", "operator-1", "monthly grant"⟩

def sampleGrant (id : Nat) : Action :=
  .grant sampleGrantRequest (.fromU128 id) ⟨.fromU128 (id + 1), sampleEpoch⟩

def sampleLogin : Action := .bootstrap sampleUser "github" 1000000 ⟨.fromU128 5, sampleEpoch⟩

/-- A login and a grant, and the same grant again. -/
theorem quota_conserved_sample :
    (performAll economyServices [sampleLogin, sampleGrant 60] Db.initial).ledger.spendable +
        (performAll economyServices [sampleLogin, sampleGrant 60] Db.initial
          ).ledger.reserve.balanceMicro = 1000500 ∧
    (perform economyServices (sampleGrant 70)
      (performAll economyServices [sampleLogin, sampleGrant 60] Db.initial)).ledger =
        (performAll economyServices [sampleLogin, sampleGrant 60] Db.initial).ledger := by
  have hgranted : grantedBy economyServices [sampleLogin, sampleGrant 60] Db.initial = 1000500 := by
    decide +kernel
  have hreleased : releasedBy economyServices [sampleLogin, sampleGrant 60] Db.initial = 0 := rfl
  obtain ⟨htotal, -, -, -, hrepeated⟩ :=
    quota_conserved economyServices [sampleLogin, sampleGrant 60]
  rw [hgranted, hreleased, add_zero] at htotal
  refine ⟨htotal, hrepeated [sampleLogin] (sampleGrant 60) [] (sampleGrant 70) rfl ?_ rfl⟩
  have hsome : (grantOperatorQuota economyServices
      (performAll economyServices [sampleLogin] Db.initial) sampleGrantRequest (.fromU128 60)
      ⟨.fromU128 61, sampleEpoch⟩).toOption.isSome = true := by decide +kernel
  cases hgrant : grantOperatorQuota economyServices
      (performAll economyServices [sampleLogin] Db.initial) sampleGrantRequest (.fromU128 60)
      ⟨.fromU128 61, sampleEpoch⟩ with
  | error e =>
      rw [hgrant] at hsome
      cases hsome
  | ok outcome => exact ⟨outcome.1, outcome.2, hgrant⟩

end Sample

end MindOne.Coordinator

import MindOne.Coordinator.Grants

/-!
# What the coordinator does to the ledgers

Three things happen to the ledger tables: an account is opened, a reservation
on an account moves, and a row is inserted. Each keeps the ledgers consistent.
A reservation moves no balance, and an inserted row moves the balance of its
own ledger by its own amount and no reservation.
-/

namespace MindOne.Database

open CheckedArithmetic Accounting KeyedTable

namespace LedgerDb

/-- What is reserved on the account of a user. -/
def reservedOf (db : LedgerDb) (userId : Uuid) : Int :=
  (db.accounts.find userId).elim 0 QuotaAccount.reservedMicro

/-- What the users can spend together. -/
def spendable (db : LedgerDb) : Int := db.accounts.sum QuotaAccount.spendableMicro

/-- The accounts after the reservation on one of them moved. -/
def moveReservation (db : LedgerDb) (account : QuotaAccount) (delta : Int) : LedgerDb :=
  db.apply (.putAccount { account with reservedMicro := account.reservedMicro + delta })

/-- An accepted insert of a ledger row. -/
def Inserted (db : LedgerDb) (table : LedgerTable) (userId : Option Uuid) (entryType : String)
    (delta : Int) (after : LedgerDb) : Prop :=
  ∃ (schema : Schema) (values : LedgerValues) (entryHash : Option String)
    (changes : List Change), insertLedger schema db table values entryHash = .ok changes ∧
    values.userId = userId ∧ values.entryType = entryType ∧ values.deltaMicro = delta ∧
    after = changes.foldl LedgerDb.apply db

/-- An update of an account changes what the users can spend by the difference. -/
theorem spendable_putAccount {db : LedgerDb} {old : QuotaAccount} (new : QuotaAccount)
    (hfind : db.accounts.find old.userId = some old) (huser : new.userId = old.userId) :
    (db.apply (.putAccount new)).spendable =
      db.spendable - old.spendableMicro + new.spendableMicro := by
  rw [← huser] at hfind
  exact Table.sum_set_of_find hfind QuotaAccount.spendableMicro

section Reservation
variable {db : LedgerDb} {account : QuotaAccount} {delta : Int}

theorem accounts_find_moveReservation (userId : Uuid) :
    (db.moveReservation account delta).accounts.find userId =
      if userId = account.userId then
        some { account with reservedMicro := account.reservedMicro + delta }
      else db.accounts.find userId := by
  simp only [moveReservation, apply, Table.find_set]

theorem reservedOf_moveReservation (hfind : db.accounts.find account.userId = some account)
    (userId : Uuid) :
    (db.moveReservation account delta).reservedOf userId =
      db.reservedOf userId + if userId = account.userId then delta else 0 := by
  by_cases h : userId = account.userId
  · subst h
    simp [reservedOf, accounts_find_moveReservation, hfind]
  · simp [reservedOf, accounts_find_moveReservation, h]

theorem spendable_moveReservation (hfind : db.accounts.find account.userId = some account) :
    (db.moveReservation account delta).spendable = db.spendable := by
  have hsum := spendable_putAccount
    { account with reservedMicro := account.reservedMicro + delta } hfind rfl
  exact hsum.trans (sub_add_cancel _ _)

theorem Consistent.moveReservation (h : db.Consistent)
    (hfind : db.accounts.find account.userId = some account)
    (checked : QuotaAccount.check { account with reservedMicro := account.reservedMicro + delta }
      = .ok ()) : (db.moveReservation account delta).Consistent := by
  obtain ⟨-, hquota, hcontribution⟩ := h.account hfind
  exact h.putAccount ⟨checked, hquota, hcontribution⟩

/-- A reservation of a consistent account can be given back as far as it goes. -/
theorem Consistent.check_release (h : db.Consistent)
    (hfind : db.accounts.find account.userId = some account) {amount : Int}
    (hnonneg : 0 ≤ amount) (hle : amount ≤ account.reservedMicro) :
    QuotaAccount.check { account with reservedMicro := account.reservedMicro + -amount } =
      .ok () := by
  obtain ⟨checked, -⟩ := h.account hfind
  obtain ⟨hspendable, -, hcontribution, hle', hquota, hcontribution'⟩ :=
    QuotaAccount.check_eq_ok.mp checked
  refine QuotaAccount.check_eq_ok.mpr
    ⟨hspendable, ?_, hcontribution, ?_, hquota, hcontribution'⟩
  · show 0 ≤ account.reservedMicro + -amount
    omega
  · show account.reservedMicro + -amount ≤ account.spendableMicro
    omega

/-- The reservation of a user moved, within the constraints of the account. -/
def Moved (db : LedgerDb) (userId : Uuid) (delta : Int) (after : LedgerDb) : Prop :=
  ∃ account, account.userId = userId ∧ db.accounts.find userId = some account ∧
    QuotaAccount.check { account with reservedMicro := account.reservedMicro + delta } =
      .ok () ∧ after = db.moveReservation account delta

variable {after : LedgerDb} {userId : Uuid}

theorem Moved.consistent (h : db.Moved userId delta after) (hconsistent : db.Consistent) :
    after.Consistent := by
  obtain ⟨account, rfl, hfind, checked, rfl⟩ := h
  exact hconsistent.moveReservation hfind checked

theorem Moved.reservedOf (h : db.Moved userId delta after) (other : Uuid) :
    after.reservedOf other = db.reservedOf other + if other = userId then delta else 0 := by
  obtain ⟨account, rfl, hfind, -, rfl⟩ := h
  exact reservedOf_moveReservation hfind other

theorem Moved.totals (h : db.Moved userId delta after) :
    after.spendable = db.spendable ∧ after.reserve = db.reserve := by
  obtain ⟨account, rfl, hfind, -, rfl⟩ := h
  exact ⟨spendable_moveReservation hfind, rfl⟩

theorem Moved.rows (h : db.Moved userId delta after) (table : LedgerTable) :
    after.table table = db.table table := by
  obtain ⟨account, -, -, -, rfl⟩ := h
  cases table <;> rfl

end Reservation

section Opening
variable {db : LedgerDb} {userId : Uuid}

/-- The accounts with a new one. -/
def openAccount (db : LedgerDb) (userId : Uuid) : LedgerDb :=
  db.apply (.putAccount (.new userId))

theorem Consistent.openAccount (h : db.Consistent) (hfresh : db.accounts.find userId = none) :
    (db.openAccount userId).Consistent := by
  obtain ⟨hquota, hcontribution⟩ := h.noRows hfresh
  refine h.putAccount ⟨rfl, ?_, ?_⟩
  · exact hquota.symm ▸ HeadMatches.empty
  · exact hcontribution.symm ▸ HeadMatches.empty

theorem reservedOf_openAccount (hfresh : db.accounts.find userId = none) (other : Uuid) :
    (db.openAccount userId).reservedOf other = db.reservedOf other := by
  have hkey : (QuotaAccount.new userId).userId = userId := rfl
  simp only [reservedOf, openAccount, apply, Table.find_set, hkey]
  by_cases h : other = userId
  · subst h
    simp [hfresh, QuotaAccount.new]
  · simp [h]

theorem spendable_openAccount (hfresh : db.accounts.find userId = none) :
    (db.openAccount userId).spendable = db.spendable := by
  have hkey : db.accounts.find (QuotaAccount.new userId).userId = none := hfresh
  rw [spendable, openAccount, apply, Table.sum_set_of_none hkey, spendable]
  simp [QuotaAccount.new]

end Opening

section Inserts
variable {db after : LedgerDb} {table : LedgerTable} {userId : Option Uuid}
  {entryType : String} {delta : Int}

theorem Inserted.consistent (h : db.Inserted table userId entryType delta after)
    (hconsistent : db.Consistent) : after.Consistent := by
  obtain ⟨_, _, _, _, hinsert, -, -, -, rfl⟩ := h
  exact hconsistent.insertLedger hinsert

/-- The rows written by an insert into the quota ledger. -/
theorem Inserted.quota (h : db.Inserted .quotaLedger userId entryType delta after) :
    ∃ values entryHash account, userId = some account.userId ∧
      db.accounts.find account.userId = some account ∧ values.deltaMicro = delta ∧
      values.balanceAfterMicro = account.spendableMicro + delta ∧
      after = (db.apply (.putAccount (account.advanceQuota values entryHash))).apply
        (.appendRow .quotaLedger { values with entryHash }) := by
  obtain ⟨_, values, _, _, hinsert, rfl, -, rfl, rfl⟩ := h
  obtain ⟨hash, advanced, -, hadvance, -, -, rfl⟩ := insertLedger_spec hinsert
  obtain ⟨account, user, hfind, extends_, -, rfl⟩ := mindoneAdvanceQuotaLedgerHead_spec hadvance
  refine ⟨values, hash, account, user, hfind, rfl, ?_, rfl⟩
  rw [extends_.after, extends_.before]
  rfl

/-- The rows written by an insert into the contribution ledger. -/
theorem Inserted.contribution
    (h : db.Inserted .contributionLedger userId entryType delta after) :
    ∃ values entryHash account, userId = some account.userId ∧
      db.accounts.find account.userId = some account ∧
      after = (db.apply (.putAccount (account.advanceContribution values entryHash))).apply
        (.appendRow .contributionLedger { values with entryHash }) := by
  obtain ⟨_, values, _, _, hinsert, rfl, -, rfl, rfl⟩ := h
  obtain ⟨hash, advanced, -, hadvance, -, -, rfl⟩ := insertLedger_spec hinsert
  obtain ⟨account, user, hfind, -, -, rfl⟩ :=
    mindoneAdvanceContributionLedgerHead_spec hadvance
  exact ⟨values, hash, account, user, hfind, rfl⟩

/-- The rows written by an insert into the reserve ledger. -/
theorem Inserted.reserve (h : db.Inserted .reserveLedger userId entryType delta after) :
    ∃ values entryHash, values.deltaMicro = delta ∧
      values.balanceAfterMicro = db.reserve.balanceMicro + delta ∧
      after = (db.apply (.putReserve (db.reserve.advance values entryHash))).apply
        (.appendRow .reserveLedger { values with entryHash }) := by
  obtain ⟨_, values, _, _, hinsert, rfl, -, rfl, rfl⟩ := h
  obtain ⟨hash, advanced, -, hadvance, -, -, rfl⟩ := insertLedger_spec hinsert
  obtain ⟨extends_, -, rfl⟩ := mindoneAdvanceReserveLedgerHead_spec hadvance
  refine ⟨values, hash, rfl, ?_, rfl⟩
  rw [extends_.after, extends_.before]
  rfl

theorem Inserted.reservedOf (h : db.Inserted table userId entryType delta after)
    (other : Uuid) : after.reservedOf other = db.reservedOf other := by
  cases table with
  | quotaLedger =>
      obtain ⟨values, hash, account, -, hfind, -, -, rfl⟩ := h.quota
      simp only [LedgerDb.reservedOf, apply, Table.find_set]
      by_cases hother : other = account.userId
      · subst hother
        simp [QuotaAccount.advanceQuota, hfind]
      · simp [QuotaAccount.advanceQuota, hother]
  | contributionLedger =>
      obtain ⟨values, hash, account, -, hfind, rfl⟩ := h.contribution
      simp only [LedgerDb.reservedOf, apply, Table.find_set]
      by_cases hother : other = account.userId
      · subst hother
        simp [QuotaAccount.advanceContribution, hfind]
      · simp [QuotaAccount.advanceContribution, hother]
  | reserveLedger =>
      obtain ⟨values, hash, -, -, rfl⟩ := h.reserve
      rfl

/-- Rows of ledgers stay where they are. -/
theorem Inserted.rows (h : db.Inserted table userId entryType delta after)
    (other : LedgerTable) : db.table other <+: after.table other := by
  obtain ⟨_, values, _, _, hinsert, -, -, -, rfl⟩ := h
  obtain ⟨hash, advanced, -, hadvance, -, -, rfl⟩ := insertLedger_spec hinsert
  have hadvanced : (db.apply advanced).table other = db.table other := by
    cases table with
    | quotaLedger =>
        obtain ⟨_, -, -, -, -, rfl⟩ := mindoneAdvanceQuotaLedgerHead_spec hadvance
        cases other <;> rfl
    | contributionLedger =>
        obtain ⟨_, -, -, -, -, rfl⟩ := mindoneAdvanceContributionLedgerHead_spec hadvance
        cases other <;> rfl
    | reserveLedger =>
        obtain ⟨-, -, rfl⟩ := mindoneAdvanceReserveLedgerHead_spec hadvance
        cases other <;> rfl
  simp only [List.foldl_cons, List.foldl_nil, table_appendRow, hadvanced]
  split
  · exact List.prefix_append _ _
  · exact List.prefix_rfl

/-- An inserted row moves the balance of its own ledger and nothing else. -/
theorem Inserted.totals (h : db.Inserted table userId entryType delta after) :
    after.spendable = db.spendable + (if table = .quotaLedger then delta else 0) ∧
      after.reserve.balanceMicro =
        db.reserve.balanceMicro + if table = .reserveLedger then delta else 0 := by
  cases table with
  | quotaLedger =>
      obtain ⟨values, hash, account, -, hfind, -, hafter, rfl⟩ := h.quota
      have hsum := spendable_putAccount (account.advanceQuota values hash) hfind rfl
      have hadvanced : (account.advanceQuota values hash).spendableMicro =
          account.spendableMicro + delta := hafter
      refine ⟨?_, by simp [apply]⟩
      show (db.apply (.putAccount (account.advanceQuota values hash))).spendable = _
      rw [hsum, hadvanced, if_pos rfl]
      omega
  | contributionLedger =>
      obtain ⟨values, hash, account, -, hfind, rfl⟩ := h.contribution
      have hsum := spendable_putAccount (account.advanceContribution values hash) hfind rfl
      refine ⟨?_, by simp [apply]⟩
      show (db.apply (.putAccount (account.advanceContribution values hash))).spendable = _
      rw [hsum, if_neg (by decide)]
      exact sub_add_cancel _ _ |>.trans (add_zero _).symm
  | reserveLedger =>
      obtain ⟨values, hash, -, hafter, rfl⟩ := h.reserve
      refine ⟨by simp [LedgerDb.spendable, apply], ?_⟩
      simpa [apply, ReserveAccount.advance] using hafter

end Inserts

end LedgerDb

end MindOne.Database

namespace MindOne.Coordinator

open CheckedArithmetic Accounting Database KeyedTable

section Accounts
variable {db after : Db} {account : QuotaAccount} {userId : Uuid} {amount : Int}

theorem takeReservation_eq_ok (hfind : db.ledger.accounts.find userId = some account)
    (h : db.takeReservation account amount = .ok after) :
    ∃ ledger, db.ledger.Moved userId amount ledger ∧ after = { db with ledger } := by
  simp only [Db.takeReservation, Db.updateAccount, bind_eq_ok, orInternal_eq_ok,
    toBigint_eq_ok] at h
  obtain ⟨_, ⟨-, rfl⟩, change, hchange, hafter⟩ := h
  obtain ⟨rfl, -, checked, -⟩ := updateQuotaAccountRow_spec hchange
  cases hafter
  exact ⟨_, ⟨account, Table.key_of_find hfind, hfind, checked, rfl⟩, rfl⟩

theorem releaseReservation_eq_ok (h : db.releaseReservation userId amount = .ok after) :
    ∃ ledger, db.ledger.Moved userId (-amount) ledger ∧ after = { db with ledger } := by
  simp only [Db.releaseReservation, Db.updateAccount, bind_eq_ok, fetchOne_eq_ok,
    orInternal_eq_ok] at h
  obtain ⟨account, hfind, _, -, change, hchange, hafter⟩ := h
  obtain ⟨rfl, -, checked, -⟩ := updateQuotaAccountRow_spec hchange
  cases hafter
  exact ⟨_, ⟨account, Table.key_of_find hfind, hfind, checked, rfl⟩, rfl⟩

/-- The release of a reservation that the account holds goes through. -/
theorem releaseReservation_ok (h : db.ledger.Consistent)
    (hfind : db.ledger.accounts.find account.userId = some account) (hnonneg : 0 ≤ amount)
    (hle : amount ≤ account.reservedMicro) :
    db.releaseReservation account.userId amount =
      .ok { db with ledger := db.ledger.moveReservation account (-amount) } := by
  have checked := h.check_release hfind hnonneg hle
  have hupdate : updateQuotaAccountRow 1 account
      { account with reservedMicro := account.reservedMicro - amount } =
      .ok (.putAccount { account with reservedMicro := account.reservedMicro + -amount }) := by
    simp [updateQuotaAccountRow, mindoneGuardQuotaAccountLedgerState, bind_eq_ok,
      Int.sub_eq_add_neg, checked, pure, Except.pure]
  simp only [Db.releaseReservation, Db.updateAccount, bind_eq_ok, fetchOne_eq_ok,
    rejectIf_eq_ok, orInternal_eq_ok, exists_const]
  exact ⟨account, hfind, by omega, _, hupdate, rfl⟩

end Accounts

section Inserts
variable {schema : Schema} {db after : LedgerDb}

theorem insertEntry_inserted {table : LedgerTable} {ledger : LedgerEntry} {entryType : String}
    {auditReference : Option String}
    (h : insertEntry schema db table ledger entryType auditReference = .ok after) :
    db.Inserted table (if table = .reserveLedger then none else some ledger.accountId)
      entryType ledger.amountMicro after := by
  simp only [insertEntry, bind_eq_ok, orInternal_eq_ok] at h
  obtain ⟨changes, hinsert, hafter⟩ := h
  cases hafter
  exact ⟨schema, _, _, changes, hinsert, rfl, rfl, rfl, rfl⟩

/-- The entry that is built is the row that is inserted. -/
theorem newEntry_inserted {table : LedgerTable} {digest : List UInt8 → String}
    {id accountId : Uuid} {requestId : Option Uuid} {key : String} {kind : LedgerKind}
    {amount before balance : Int} {createdAt : OffsetDateTime} {previousHash : String}
    {metadata : Metadata} {entry : LedgerEntry} {entryType : String}
    {auditReference : Option String}
    (hnew : LedgerEntry.new digest id accountId requestId key kind amount before balance createdAt
      previousHash metadata = .ok entry)
    (h : insertEntry schema db table entry entryType auditReference = .ok after) :
    db.Inserted table (if table = .reserveLedger then none else some accountId) entryType amount
      after := by
  obtain ⟨-, hentry⟩ := LedgerEntry.new_eq_ok.mp hnew
  have hinserted := insertEntry_inserted h
  rwa [hentry] at hinserted

variable {stamp : Stamp} {userId jobId : Uuid} {entryType key hash : String}
  {delta before balance : Int}

theorem appendQuota_inserted
    (h : appendQuota schema db stamp userId jobId entryType delta before balance key =
      .ok (after, hash)) : db.Inserted .quotaLedger (some userId) entryType delta after := by
  simp only [appendQuota, quotaEntry, bind_eq_ok] at h
  obtain ⟨account, -, entry, hentry, written, hwritten, hafter⟩ := h
  cases hafter
  split at hentry
  · exact newEntry_inserted (orInternal_eq_ok.mp hentry) hwritten
  · exact newEntry_inserted (orInternal_eq_ok.mp hentry) hwritten
  · cases hentry

theorem appendContribution_inserted
    (h : appendContribution schema db stamp userId jobId delta before balance key =
      .ok (after, hash)) :
    db.Inserted .contributionLedger (some userId) "node_contribution" delta after := by
  simp only [appendContribution, contributionEntry, bind_eq_ok, orInternal_eq_ok] at h
  obtain ⟨account, -, entry, hentry, written, hwritten, hafter⟩ := h
  cases hafter
  exact newEntry_inserted hentry hwritten

theorem appendReserve_inserted
    (h : appendReserve schema db stamp jobId delta before balance key = .ok (after, hash)) :
    db.Inserted .reserveLedger none "settlement_inflow" delta after := by
  simp only [appendReserve, reserveEntry, bind_eq_ok, orInternal_eq_ok] at h
  obtain ⟨entry, hentry, written, hwritten, hafter⟩ := h
  cases hafter
  exact newEntry_inserted hentry hwritten

end Inserts

end MindOne.Coordinator

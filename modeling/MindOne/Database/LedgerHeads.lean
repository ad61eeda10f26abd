import MindOne.Lib.HashChain
import MindOne.Lib.KeyedTable
import MindOne.Database.LedgerHash

/-!
# Authoritative ledger heads

Each account row stores the head, the length and the balance of its ledgers.
Only the insert of a ledger row may advance them: a trigger checks that the row
extends the stored head and updates the account, and a guard on the account
refuses every other change of these columns. The statements below are single
row operations with their triggers and constraints in the order in which the
database runs them.
-/

namespace MindOne.Database

open CheckedArithmetic Accounting KeyedTable

structure QuotaAccount where
  userId : Uuid
  spendableMicro : Int
  reservedMicro : Int
  contributionMicro : Int
  quotaLedgerHeadHash : String
  quotaLedgerEntryCount : Int
  contributionLedgerHeadHash : String
  contributionLedgerEntryCount : Int
  deriving DecidableEq, Repr

/-- The single row of `reserve_accounts`. -/
structure ReserveAccount where
  balanceMicro : Int
  ledgerHeadHash : String
  ledgerEntryCount : Int
  deriving DecidableEq, Repr

structure LedgerRow extends LedgerValues where
  entryHash : String
  deriving DecidableEq, Repr

structure LedgerDb where
  accounts : Table QuotaAccount.userId
  reserve : ReserveAccount
  quotaLedger : List LedgerRow
  contributionLedger : List LedgerRow
  reserveLedger : List LedgerRow

/-- A new quota account with the column defaults. -/
def QuotaAccount.new (userId : Uuid) : QuotaAccount where
  userId
  spendableMicro := 0
  reservedMicro := 0
  contributionMicro := 0
  quotaLedgerHeadHash := genesisHash
  quotaLedgerEntryCount := 0
  contributionLedgerHeadHash := genesisHash
  contributionLedgerEntryCount := 0

/-- The migrated database before its first transaction. -/
def LedgerDb.initial : LedgerDb where
  accounts := .empty
  reserve := ⟨0, genesisHash, 0⟩
  quotaLedger := []
  contributionLedger := []
  reserveLedger := []

/-- One row-level change. -/
inductive Change where
  | putAccount (row : QuotaAccount)
  | putReserve (row : ReserveAccount)
  | appendRow (table : LedgerTable) (row : LedgerRow)
  deriving DecidableEq, Repr

namespace LedgerDb

def table (db : LedgerDb) : LedgerTable → List LedgerRow
  | .quotaLedger => db.quotaLedger
  | .contributionLedger => db.contributionLedger
  | .reserveLedger => db.reserveLedger

def apply (db : LedgerDb) : Change → LedgerDb
  | .putAccount row => { db with accounts := db.accounts.set row }
  | .putReserve row => { db with reserve := row }
  | .appendRow .quotaLedger row => { db with quotaLedger := db.quotaLedger ++ [row] }
  | .appendRow .contributionLedger row =>
      { db with contributionLedger := db.contributionLedger ++ [row] }
  | .appendRow .reserveLedger row => { db with reserveLedger := db.reserveLedger ++ [row] }

/-- The rows of one user in a ledger, in the order of their insertion. -/
def rowsOf (db : LedgerDb) (table : LedgerTable) (userId : Uuid) : List LedgerRow :=
  (db.table table).filter fun row => row.userId = some userId

end LedgerDb

/-- `SELECT … INTO STRICT`: exactly one row. -/
def selectStrict {α : Type} : List α → SqlResult α
  | [] => .error .noDataFound
  | [row] => .ok row
  | _ => .error .tooManyRows

theorem selectStrict_eq_ok {α : Type} {rows : List α} {row : α} :
    selectStrict rows = .ok row ↔ rows = [row] := by
  match rows with
  | [] => simp [selectStrict]
  | [x] => simp [selectStrict]
  | x :: y :: rest => simp [selectStrict]

/-- The three columns that describe one ledger on its account row. -/
structure LedgerHead where
  hash : String
  count : Int
  balance : Int
  deriving DecidableEq, Repr

def QuotaAccount.quotaHead (account : QuotaAccount) : LedgerHead :=
  ⟨account.quotaLedgerHeadHash, account.quotaLedgerEntryCount, account.spendableMicro⟩

def QuotaAccount.contributionHead (account : QuotaAccount) : LedgerHead :=
  ⟨account.contributionLedgerHeadHash, account.contributionLedgerEntryCount,
    account.contributionMicro⟩

def ReserveAccount.head (account : ReserveAccount) : LedgerHead :=
  ⟨account.ledgerHeadHash, account.ledgerEntryCount, account.balanceMicro⟩

/-- What a row trigger is fired for. -/
inductive RowEvent (α : Type) where
  | insert (new : α)
  | update (old new : α)
  | delete (old : α)

/-- The guard on quota accounts. `depth` is `pg_trigger_depth()`: one for a
statement on the table itself, two for the update inside a ledger trigger. -/
def mindoneGuardQuotaAccountLedgerState (depth : Nat) :
    RowEvent QuotaAccount → SqlResult Unit
  | .insert new =>
      rejectIf (new.spendableMicro ≠ 0 ∨ new.reservedMicro ≠ 0 ∨ new.contributionMicro ≠ 0 ∨
          new.quotaLedgerHeadHash ≠ genesisHash ∨ new.quotaLedgerEntryCount ≠ 0 ∨
          new.contributionLedgerHeadHash ≠ genesisHash ∨ new.contributionLedgerEntryCount ≠ 0)
        (raiseCheck "new quota account must start from zero ledger genesis")
  | .delete _ => .error (raiseCheck "quota account rows cannot be deleted")
  | .update old new => do
      rejectIf (new.userId ≠ old.userId)
        (raiseCheck "quota account identity cannot be changed")
      rejectIf (depth ≠ 2 ∧
          (new.spendableMicro ≠ old.spendableMicro ∨
            new.contributionMicro ≠ old.contributionMicro ∨
            new.quotaLedgerHeadHash ≠ old.quotaLedgerHeadHash ∨
            new.quotaLedgerEntryCount ≠ old.quotaLedgerEntryCount ∨
            new.contributionLedgerHeadHash ≠ old.contributionLedgerHeadHash ∨
            new.contributionLedgerEntryCount ≠ old.contributionLedgerEntryCount))
        (raiseCheck "quota account ledger state can only be advanced by ledger insert")

def mindoneGuardReserveAccountLedgerState (depth : Nat) :
    RowEvent (Int × ReserveAccount) → SqlResult Unit
  | .insert (id, new) =>
      rejectIf (id ≠ 1 ∨ new.balanceMicro ≠ 0 ∨ new.ledgerHeadHash ≠ genesisHash ∨
          new.ledgerEntryCount ≠ 0)
        (raiseCheck "reserve account must start from zero ledger genesis")
  | .delete _ => .error (raiseCheck "reserve account row cannot be deleted")
  | .update (_, old) (_, new) =>
      rejectIf (depth ≠ 2 ∧
          (new.balanceMicro ≠ old.balanceMicro ∨ new.ledgerHeadHash ≠ old.ledgerHeadHash ∨
            new.ledgerEntryCount ≠ old.ledgerEntryCount))
        (raiseCheck "reserve account ledger state can only be advanced by ledger insert")

/-- The shape constraint on the head columns of one ledger. -/
def headShape (head : LedgerHead) : Prop :=
  isSha256 head.hash = true ∧ 0 ≤ head.count ∧
    ((head.count = 0 ∧ head.hash = genesisHash) ∨ (0 < head.count ∧ head.hash ≠ genesisHash))

instance (head : LedgerHead) : Decidable (headShape head) :=
  inferInstanceAs (Decidable (_ ∧ _))

/-- The `CHECK` constraints of `quota_accounts`. -/
def QuotaAccount.check (account : QuotaAccount) : SqlResult Unit := do
  rejectIf (account.spendableMicro < 0) (.checkViolation "quota_accounts_spendable_micro_check")
  rejectIf (account.reservedMicro < 0) (.checkViolation "quota_accounts_reserved_micro_check")
  rejectIf (account.contributionMicro < 0)
    (.checkViolation "quota_accounts_contribution_micro_check")
  rejectIf (account.spendableMicro < account.reservedMicro)
    (.checkViolation "quota_accounts_check")
  rejectIf (¬ headShape account.quotaHead)
    (.checkViolation "quota_accounts_quota_ledger_head_shape")
  rejectIf (¬ headShape account.contributionHead)
    (.checkViolation "quota_accounts_contribution_ledger_head_shape")

/-- The `CHECK` constraints of `reserve_accounts`. -/
def ReserveAccount.check (account : ReserveAccount) : SqlResult Unit := do
  rejectIf (account.balanceMicro < 0) (.checkViolation "reserve_accounts_balance_micro_check")
  rejectIf (¬ headShape account.head)
    (.checkViolation "reserve_accounts_ledger_head_shape")

/-- An update of one account row, with its guard and its constraints. -/
def updateQuotaAccountRow (depth : Nat) (old new : QuotaAccount) : SqlResult Change := do
  mindoneGuardQuotaAccountLedgerState depth (.update old new)
  new.check
  return .putAccount new

def updateReserveAccountRow (depth : Nat) (old new : ReserveAccount) : SqlResult Change := do
  mindoneGuardReserveAccountLedgerState depth (.update (1, old) (1, new))
  new.check
  return .putReserve new

/-- The consistency check with which an advance trigger starts: an empty ledger has
the genesis head, any other one a head row with the stored balance. -/
def checkStoredHead (label : String) (head : LedgerHead) (ledger : List LedgerRow) :
    SqlResult Unit :=
  if head.count = 0 then
    rejectIf (head.hash ≠ genesisHash ∨ head.balance ≠ 0)
      (raiseException ("empty " ++ label ++ " ledger account state is inconsistent"))
  else do
    let headRow ← selectStrict (ledger.filter fun row => row.entryHash = head.hash)
    rejectIf (headRow.balanceAfterMicro ≠ head.balance)
      (raiseException (label ++ " ledger head balance does not match account"))

/-- The body shared by the three advance triggers: the new head for a row that
extends the stored one. `ledger` are the rows the head is looked up in. -/
def advanceHead (label : String) (head : LedgerHead) (ledger : List LedgerRow)
    (values : LedgerValues) (entryHash : String) : SqlResult LedgerHead := do
  checkStoredHead label head ledger
  rejectIf (entryHash = genesisHash ∨ values.prevHash ≠ head.hash ∨
      values.balanceBeforeMicro ≠ head.balance)
    (raiseException (label ++ " ledger entry does not extend authoritative account state"))
  let expectedAfter ← toBigint (values.balanceBeforeMicro + values.deltaMicro)
  rejectIf (values.balanceAfterMicro ≠ expectedAfter)
    (raiseException (label ++ " ledger entry does not extend authoritative account state"))
  let count ← toBigint (head.count + 1)
  return ⟨entryHash, count, values.balanceAfterMicro⟩

namespace LedgerDb

/-- `SELECT … FROM quota_accounts WHERE user_id=NEW.user_id FOR UPDATE`. -/
def selectAccount (db : LedgerDb) (userId : Option Uuid) : SqlResult QuotaAccount :=
  match userId.bind db.accounts.find with
  | some account => .ok account
  | none => .error .noDataFound

end LedgerDb

def mindoneAdvanceQuotaLedgerHead (db : LedgerDb) (values : LedgerValues)
    (entryHash : String) : SqlResult Change := do
  let account ← db.selectAccount values.userId
  let head ← advanceHead "quota" account.quotaHead (db.rowsOf .quotaLedger account.userId)
    values entryHash
  updateQuotaAccountRow 2 account { account with
    spendableMicro := head.balance
    quotaLedgerHeadHash := head.hash
    quotaLedgerEntryCount := head.count }

def mindoneAdvanceContributionLedgerHead (db : LedgerDb) (values : LedgerValues)
    (entryHash : String) : SqlResult Change := do
  let account ← db.selectAccount values.userId
  let head ← advanceHead "contribution" account.contributionHead
    (db.rowsOf .contributionLedger account.userId) values entryHash
  updateQuotaAccountRow 2 account { account with
    contributionMicro := head.balance
    contributionLedgerHeadHash := head.hash
    contributionLedgerEntryCount := head.count }

def mindoneAdvanceReserveLedgerHead (db : LedgerDb) (values : LedgerValues)
    (entryHash : String) : SqlResult Change := do
  let head ← advanceHead "reserve" db.reserve.head db.reserveLedger values entryHash
  updateReserveAccountRow 2 db.reserve ⟨head.balance, head.hash, head.count⟩

/-- The trigger that follows the hash check on each ledger table. -/
def LedgerTable.advance (table : LedgerTable) (db : LedgerDb) (values : LedgerValues)
    (entryHash : String) : SqlResult Change :=
  match table with
  | .quotaLedger => mindoneAdvanceQuotaLedgerHead db values entryHash
  | .contributionLedger => mindoneAdvanceContributionLedgerHead db values entryHash
  | .reserveLedger => mindoneAdvanceReserveLedgerHead db values entryHash

def LedgerTable.name : LedgerTable → String
  | .quotaLedger => "quota_ledger"
  | .contributionLedger => "contribution_ledger"
  | .reserveLedger => "reserve_ledger"

/-- `btrim` leaves something. -/
def hasNonSpace (text : String) : Bool := text.toList.any (· ≠ ' ')

/-- The `CHECK` constraints of the ledger tables. -/
def LedgerTable.checkColumns (table : LedgerTable) (row : LedgerRow) : SqlResult Unit := do
  rejectIf (row.balanceBeforeMicro < 0)
    (.checkViolation (table.name ++ "_balance_before_micro_check"))
  rejectIf (row.balanceAfterMicro < 0)
    (.checkViolation (table.name ++ "_balance_after_micro_check"))
  rejectIf (isSha256 row.prevHash = false ∨ isSha256 row.entryHash = false ∨
      row.entryHash = genesisHash)
    (.checkViolation (table.name ++ "_hash_shape"))
  rejectIf (row.balanceAfterMicro ≠ row.balanceBeforeMicro + row.deltaMicro)
    (.checkViolation (table.name ++ "_balance_arithmetic"))
  match table with
  | .quotaLedger => return ()
  | .contributionLedger =>
      rejectIf (row.deltaMicro < 0) (.checkViolation "contribution_ledger_delta_micro_check")
  | .reserveLedger => do
      rejectIf (row.entryType ∉
          ["settlement_inflow", "verification", "retry", "bandwidth", "peak_capacity"])
        (.checkViolation "reserve_ledger_entry_type_check")
      rejectIf (row.deltaMicro < 0 ∧ ∀ reference ∈ row.auditReference,
          hasNonSpace reference = false)
        (.checkViolation "reserve_release_requires_reference")

/-- The unique indexes of the ledger tables. -/
def LedgerTable.checkUnique (table : LedgerTable) (existing : List LedgerRow)
    (row : LedgerRow) : SqlResult Unit := do
  rejectIf (∃ other ∈ existing, other.id = row.id) (.uniqueViolation (table.name ++ "_pkey"))
  rejectIf (∃ other ∈ existing, other.idempotencyKey = row.idempotencyKey)
    (.uniqueViolation (table.name ++ "_idempotency_key_key"))
  rejectIf (∃ other ∈ existing, other.entryHash = row.entryHash)
    (.uniqueViolation (table.name ++ "_entry_hash_key"))
  rejectIf (∃ other ∈ existing, other.userId = row.userId ∧ other.prevHash = row.prevHash)
    (.uniqueViolation (table.name ++ "_single_successor"))

/-- What the rest of the schema lets a row refer to. -/
structure References where
  userExists : Uuid → Bool
  jobExists : Uuid → Bool

/-- What every statement of one database shares. -/
structure Schema where
  digest : List UInt8 → String
  references : References

section Statements
variable (schema : Schema)

/-- `INSERT` of one ledger row: hash trigger, advance trigger, column checks,
unique indexes, foreign keys. -/
def insertLedger (db : LedgerDb) (table : LedgerTable) (values : LedgerValues)
    (entryHash : Option String) : SqlResult (List Change) := do
  let hash ← mindoneValidateCanonicalLedgerHash schema.digest table values entryHash
  let advanced ← table.advance db values hash
  let row : LedgerRow := { values with entryHash := hash }
  table.checkColumns row
  table.checkUnique (db.table table) row
  rejectIf (∃ job ∈ row.requestId, schema.references.jobExists job = false)
    (.foreignKeyViolation (table.name ++ "_request_id_fkey"))
  return [advanced, .appendRow table row]

/-- A statement on one row. Ledger rows cannot be changed or deleted. -/
inductive RowOperation where
  | insertAccount (new : QuotaAccount)
  | updateAccount (userId : Uuid) (new : QuotaAccount)
  | deleteAccount (userId : Uuid)
  | insertReserve (id : Int) (new : ReserveAccount)
  | updateReserve (new : ReserveAccount)
  | deleteReserve
  | insertLedger (table : LedgerTable) (values : LedgerValues) (entryHash : Option String)
  | mutateLedger (table : LedgerTable) (id : Uuid)
  | lockAccount (userId : Uuid)
  | lockReserve

def RowOperation.execute (operation : RowOperation) (db : LedgerDb) :
    SqlResult (List Change) :=
  match operation with
  | .insertAccount new => do
      mindoneGuardQuotaAccountLedgerState 1 (.insert new)
      new.check
      rejectIf (db.accounts.find new.userId ≠ none) (.uniqueViolation "quota_accounts_pkey")
      rejectIf (schema.references.userExists new.userId = false)
        (.foreignKeyViolation "quota_accounts_user_id_fkey")
      return [.putAccount new]
  | .updateAccount userId new =>
      match db.accounts.find userId with
      | none => .ok []
      | some old => do return [← updateQuotaAccountRow 1 old new]
  | .deleteAccount userId =>
      match db.accounts.find userId with
      | none => .ok []
      | some old => do
          mindoneGuardQuotaAccountLedgerState 1 (.delete old)
          return []
  | .insertReserve id new => do
      mindoneGuardReserveAccountLedgerState 1 (.insert (id, new))
      .error (.uniqueViolation "reserve_accounts_pkey")
  | .updateReserve new => do return [← updateReserveAccountRow 1 db.reserve new]
  | .deleteReserve => do
      mindoneGuardReserveAccountLedgerState 1 (.delete (1, db.reserve))
      return []
  | .insertLedger table values entryHash => Database.insertLedger schema db table values entryHash
  | .mutateLedger table id =>
      if ∃ row ∈ db.table table, row.id = id then
        .error (raiseException "MindOne ledger rows are append-only")
      else .ok []
  | .lockAccount _ => .ok []
  | .lockReserve => .ok []

/-- A statement on several rows: each sees the rows before it, and an error in
one of them leaves none of the changes. -/
def executeStatement : List RowOperation → LedgerDb → SqlResult (List Change)
  | [], _ => .ok []
  | operation :: rest, db => do
      let changes ← operation.execute schema db
      let later ← executeStatement rest (changes.foldl LedgerDb.apply db)
      return changes ++ later

end Statements

end MindOne.Database
